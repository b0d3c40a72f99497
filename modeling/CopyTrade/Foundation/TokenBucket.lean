import CopyTrade.Foundation.Runs
import Mathlib.Algebra.BigOperators.Group.List.Basic
import Mathlib.Tactic.Ring

/-!
# Token buckets

A bucket holds units of weight times time, refills at the rate of its capacity for each window, and
counts what was paid since the accounting window started.  What is paid in an interval is bounded by
the units the bucket can have and gains, and what is paid between two resets by the capacity.
-/

namespace CopyTrade.Foundation

/-- A bucket with one accounting window. -/
structure TokenBucket where
  /-- The weight the bucket pays for in one window. -/
  capacity : ℕ
  window : ℕ
  units : ℕ
  lastRefill : ℕ
  windowStart : ℕ
  consumed : ℕ
deriving DecidableEq

/-- A weight that is paid at a time. -/
structure Payment where
  time : ℕ
  weight : ℕ

namespace TokenBucket

def full (capacity window start : ℕ) : TokenBucket where
  capacity
  window
  units := capacity * window
  lastRefill := start
  windowStart := start
  consumed := 0

def advance (b : TokenBucket) (now : ℕ) : TokenBucket :=
  if now - b.lastRefill = 0 then b
  else
    let b := { b with
      units := min (b.units + (now - b.lastRefill) * b.capacity) (b.capacity * b.window)
      lastRefill := now }
    if b.window ≤ now - b.windowStart then { b with windowStart := now, consumed := 0 } else b

/-- The bucket has the units for a weight, and the window the room. -/
def Grants (b : TokenBucket) (weight : ℕ) : Prop :=
  weight * b.window ≤ b.units ∧ b.consumed + weight ≤ b.capacity

instance (b : TokenBucket) (weight : ℕ) : Decidable (b.Grants weight) :=
  inferInstanceAs (Decidable (_ ∧ _))

def pay (b : TokenBucket) (weight : ℕ) : TokenBucket :=
  { b with units := b.units - weight * b.window, consumed := b.consumed + weight }

def after (b : TokenBucket) (payment : Payment) : TokenBucket :=
  (b.advance payment.time).pay payment.weight

def Affords (b : TokenBucket) (payment : Payment) : Prop :=
  (b.advance payment.time).Grants payment.weight

@[simp] theorem advance_capacity (b : TokenBucket) (now : ℕ) :
    (b.advance now).capacity = b.capacity := by
  unfold advance
  dsimp only
  split
  · rfl
  · split <;> rfl

@[simp] theorem advance_window (b : TokenBucket) (now : ℕ) :
    (b.advance now).window = b.window := by
  unfold advance
  dsimp only
  split
  · rfl
  · split <;> rfl

@[simp] theorem advance_lastRefill (b : TokenBucket) (now : ℕ) :
    (b.advance now).lastRefill = max b.lastRefill now := by
  unfold advance
  dsimp only
  split
  · omega
  · split <;> (dsimp only; omega)

theorem advance_units (b : TokenBucket) (now : ℕ) (h : b.units ≤ b.capacity * b.window) :
    (b.advance now).units =
      min (b.units + (now - b.lastRefill) * b.capacity) (b.capacity * b.window) := by
  unfold advance
  dsimp only
  split
  · rename_i hsame
    rw [hsame, zero_mul, add_zero, min_eq_left h]
  · split <;> rfl

theorem advance_consumed_le (b : TokenBucket) (now : ℕ) : (b.advance now).consumed ≤ b.consumed := by
  unfold advance
  dsimp only
  split
  · exact le_rfl
  · split
    · exact Nat.zero_le _
    · exact le_rfl

theorem advance_consumed (b : TokenBucket) (now : ℕ) (hwindow : 0 < b.window)
    (hkept : (b.advance now).windowStart = b.windowStart) :
    (b.advance now).consumed = b.consumed := by
  unfold advance at hkept ⊢
  dsimp only at hkept ⊢
  split
  · rfl
  · rename_i hlater
    rw [if_neg hlater] at hkept
    split
    · rename_i hover
      rw [if_pos hover] at hkept
      dsimp only at hkept
      omega
    · rfl

/-- The units and the count stay within the capacity. -/
structure Within (b : TokenBucket) : Prop where
  units : b.units ≤ b.capacity * b.window
  consumed : b.consumed ≤ b.capacity

theorem within_full (capacity window start : ℕ) : (full capacity window start).Within :=
  ⟨le_rfl, Nat.zero_le _⟩

variable {b : TokenBucket}

theorem Within.advance (h : b.Within) (now : ℕ) : (b.advance now).Within := by
  refine ⟨?_, ?_⟩
  · rw [advance_units b now h.units, advance_capacity, advance_window]
    exact min_le_right _ _
  · rw [advance_capacity]
    exact (advance_consumed_le b now).trans h.consumed

theorem Within.pay (h : b.Within) {weight : ℕ} (hgrants : b.Grants weight) :
    (b.pay weight).Within :=
  ⟨(Nat.sub_le _ _).trans h.units, hgrants.2⟩

variable {payment : Payment} {payments : List Payment}

theorem Within.after (h : b.Within) (hafford : b.Affords payment) : (b.after payment).Within :=
  (h.advance payment.time).pay hafford

theorem after_capacity (b : TokenBucket) (payment : Payment) :
    (b.after payment).capacity = b.capacity := advance_capacity b payment.time

theorem after_window (b : TokenBucket) (payment : Payment) :
    (b.after payment).window = b.window := advance_window b payment.time

theorem after_lastRefill (b : TokenBucket) (payment : Payment) :
    (b.after payment).lastRefill = max b.lastRefill payment.time :=
  advance_lastRefill b payment.time

theorem after_units (hafford : b.Affords payment) :
    (b.after payment).units + payment.weight * b.window = (b.advance payment.time).units := by
  have hpaid := hafford.1
  rw [advance_window] at hpaid
  have hafter : (b.after payment).units =
      (b.advance payment.time).units - payment.weight * b.window := by
    unfold TokenBucket.after TokenBucket.pay
    rw [advance_window]
  omega

theorem Grants.pay {weight rest : ℕ} (h : b.Grants (weight + rest)) : (b.pay weight).Grants rest := by
  obtain ⟨hunits, hconsumed⟩ := h
  rw [Nat.add_mul] at hunits
  unfold TokenBucket.pay
  refine ⟨?_, ?_⟩
  · dsimp only
    omega
  · dsimp only
    omega

theorem Grants.mono {weight less : ℕ} (h : b.Grants weight) (hle : less ≤ weight) :
    b.Grants less :=
  ⟨(Nat.mul_le_mul_right _ hle).trans h.1, (Nat.add_le_add_left hle _).trans h.2⟩

theorem after_advance (b : TokenBucket) (payment : Payment) :
    (b.after payment).advance payment.time = b.after payment := by
  have hlast := after_lastRefill b payment
  generalize b.after payment = paid at hlast ⊢
  unfold TokenBucket.advance
  rw [if_pos]
  omega

theorem after_windowStart (hopen : payment.time - b.windowStart < b.window) :
    (b.after payment).windowStart = b.windowStart := by
  unfold TokenBucket.after TokenBucket.pay TokenBucket.advance
  dsimp only
  split
  · rfl
  · rw [if_neg (by omega)]

/-- The first call after the end of an accounting window finds its whole capacity, and at least the
units of the time since the last one. -/
theorem advance_over {now weight : ℕ} (hover : b.window ≤ now - b.windowStart)
    (hunits : weight * b.window ≤ min ((now - b.lastRefill) * b.capacity) (b.capacity * b.window))
    (hlater : now - b.lastRefill ≠ 0) (hweight : weight ≤ b.capacity) :
    (b.advance now).Grants weight := by
  unfold TokenBucket.advance TokenBucket.Grants
  rw [if_neg hlater]
  rw [if_pos hover]
  dsimp only
  omega

def total (payments : List Payment) : ℕ := (payments.map Payment.weight).sum

@[simp] theorem total_nil : total [] = 0 := rfl

@[simp] theorem total_cons (payment : Payment) (payments : List Payment) :
    total (payment :: payments) = payment.weight + total payments := List.sum_cons

def InOrder (payments : List Payment) : Prop :=
  payments.Pairwise fun earlier later => earlier.time ≤ later.time

theorem filter_le_eq_nil (horder : InOrder (payment :: payments)) {last : ℕ}
    (h : last < payment.time) :
    (payment :: payments).filter (fun p => decide (p.time ≤ last)) = [] := by
  rw [List.filter_eq_nil_iff]
  intro p hp
  rw [decide_eq_true_eq]
  rcases List.mem_cons.mp hp with rfl | hp
  · omega
  · have := (List.pairwise_cons.mp horder).1 p hp
    omega

/-- What is paid up to a time comes out of the units and of what is refilled until then. -/
theorem total_until_le (h : b.Within) (horder : InOrder payments)
    (hall : AllSteps TokenBucket.after Affords b payments) (last : ℕ) :
    total (payments.filter fun p => decide (p.time ≤ last)) * b.window ≤
      b.units + (last - b.lastRefill) * b.capacity := by
  induction payments generalizing b with
  | nil => simp
  | cons payment payments ih =>
    by_cases htime : payment.time ≤ last
    · have hrest := ih (h.after hall.1) (List.pairwise_cons.mp horder).2 hall.2
      rw [after_capacity, after_window, after_lastRefill] at hrest
      have hpaid := after_units hall.1
      have hunits : (b.advance payment.time).units ≤
          b.units + (payment.time - b.lastRefill) * b.capacity := by
        rw [advance_units b payment.time h.units]
        exact min_le_left _ _
      have hsplit : (last - b.lastRefill) * b.capacity =
          (last - max b.lastRefill payment.time) * b.capacity +
            (payment.time - b.lastRefill) * b.capacity := by
        rw [← Nat.add_mul]
        congr 1
        omega
      rw [List.filter_cons_of_pos (by simpa using htime), total_cons, Nat.add_mul, hsplit]
      omega
    · rw [filter_le_eq_nil horder (by omega)]
      simp

/-- What is paid in an interval is bounded by a full bucket and the refill of its length. -/
theorem total_interval_le (h : b.Within) (hwindow : 0 < b.window) (horder : InOrder payments)
    (hall : AllSteps TokenBucket.after Affords b payments) (start length : ℕ) :
    total (payments.filter fun p => decide (start ≤ p.time ∧ p.time ≤ start + length)) ≤
      b.capacity + b.capacity * length / b.window := by
  induction payments generalizing b with
  | nil => simp
  | cons payment payments ih =>
    obtain ⟨hfirst, hrestOrder⟩ := List.pairwise_cons.mp horder
    by_cases hin : start ≤ payment.time ∧ payment.time ≤ start + length
    · have hlater : payments.filter (fun p => decide (start ≤ p.time ∧ p.time ≤ start + length)) =
          payments.filter fun p => decide (p.time ≤ start + length) := by
        refine List.filter_congr fun p hp => ?_
        have := hfirst p hp
        rw [decide_eq_decide]
        omega
      have hrest := total_until_le (h.after hall.1) hrestOrder hall.2 (start + length)
      rw [after_capacity, after_window, after_lastRefill] at hrest
      have hpaid := after_units hall.1
      have hfull := (h.advance payment.time).units
      rw [advance_capacity, advance_window] at hfull
      have hgain : (start + length - max b.lastRefill payment.time) * b.capacity ≤
          b.capacity * length := by
        rw [Nat.mul_comm]
        exact Nat.mul_le_mul_left _ (by omega)
      rw [List.filter_cons_of_pos (by simpa using hin), hlater, total_cons,
        ← Nat.mul_add_div hwindow, Nat.le_div_iff_mul_le hwindow, Nat.add_mul,
        Nat.mul_comm b.window]
      omega
    · have hrest := ih (h.after hall.1) (by rw [after_window]; exact hwindow) hrestOrder hall.2
      rw [after_capacity, after_window] at hrest
      rw [List.filter_cons_of_neg (by simpa using hin)]
      exact hrest

def OneWindow (b : TokenBucket) : List Payment → Prop
  | [] => True
  | payment :: payments => ∀ after ∈ states TokenBucket.after (b.after payment) payments,
      after.windowStart = (b.after payment).windowStart

theorem consumed_run (hwindow : 0 < b.window)
    (hkept : ∀ after ∈ states TokenBucket.after b payments, after.windowStart = b.windowStart) :
    (run TokenBucket.after b payments).consumed = b.consumed + total payments := by
  induction payments generalizing b with
  | nil => rfl
  | cons payment payments ih =>
    have hnext : (b.after payment).windowStart = b.windowStart := by
      refine hkept _ (List.mem_cons_of_mem b ?_)
      cases payments <;> exact List.mem_cons_self
    have hconsumed : (b.after payment).consumed = b.consumed + payment.weight :=
      congrArg (· + payment.weight) (advance_consumed b payment.time hwindow hnext)
    rw [run_cons, ih (by rw [after_window]; exact hwindow), hconsumed, total_cons, Nat.add_assoc]
    intro after hafter
    rw [hnext]
    exact hkept after (List.mem_cons_of_mem b hafter)

theorem Within.run (h : b.Within) (hall : AllSteps TokenBucket.after Affords b payments) :
    (run TokenBucket.after b payments).Within := by
  induction payments generalizing b with
  | nil => exact h
  | cons payment payments ih => exact ih (h.after hall.1) hall.2

theorem run_capacity (b : TokenBucket) (payments : List Payment) :
    (run TokenBucket.after b payments).capacity = b.capacity := by
  induction payments generalizing b with
  | nil => rfl
  | cons payment payments ih => rw [run_cons, ih, after_capacity]

theorem total_window_le (h : b.Within) (hwindow : 0 < b.window)
    (hall : AllSteps TokenBucket.after Affords b payments) (hone : OneWindow b payments) :
    total payments ≤ b.capacity := by
  cases payments with
  | nil => exact Nat.zero_le _
  | cons payment payments =>
    have hcount := consumed_run (b := b.after payment) (by rw [after_window]; exact hwindow) hone
    have hwithin := ((h.after hall.1).run hall.2).consumed
    rw [run_capacity, after_capacity, hcount] at hwithin
    have hfirst : (b.after payment).consumed = (b.advance payment.time).consumed + payment.weight :=
      rfl
    rw [total_cons]
    omega

/-- A bucket has the room of two others on its clock: what both of them can pay, it can pay. -/
structure Covers (b p q : TokenBucket) : Prop where
  windows : p.window = b.window ∧ q.window = b.window
  refills : p.lastRefill = b.lastRefill ∧ q.lastRefill = b.lastRefill
  starts : p.windowStart = b.windowStart ∧ q.windowStart = b.windowStart
  capacity : p.capacity + q.capacity ≤ b.capacity
  withinLeft : p.Within
  withinRight : q.Within
  units : p.units + q.units ≤ b.units
  consumed : b.consumed ≤ p.consumed + q.consumed

namespace Covers

variable {b p q : TokenBucket}

theorem full {capacity left right : ℕ} (h : left + right ≤ capacity) (window start : ℕ) :
    Covers (full capacity window start) (full left window start) (full right window start) where
  windows := ⟨rfl, rfl⟩
  refills := ⟨rfl, rfl⟩
  starts := ⟨rfl, rfl⟩
  capacity := h
  withinLeft := within_full left window start
  withinRight := within_full right window start
  units := by
    change left * window + right * window ≤ capacity * window
    rw [← Nat.add_mul]
    exact Nat.mul_le_mul_right window h
  consumed := le_rfl

theorem symm (h : Covers b p q) : Covers b q p where
  windows := h.windows.symm
  refills := h.refills.symm
  starts := h.starts.symm
  capacity := by rw [Nat.add_comm]; exact h.capacity
  withinLeft := h.withinRight
  withinRight := h.withinLeft
  units := by rw [Nat.add_comm]; exact h.units
  consumed := by rw [Nat.add_comm]; exact h.consumed

theorem grants (h : Covers b p q) {weight : ℕ} (hgrants : p.Grants weight) : b.Grants weight := by
  obtain ⟨hunits, hwindow⟩ := hgrants
  have hroom := h.withinRight.consumed
  refine ⟨?_, ?_⟩
  · rw [← h.windows.1]
    exact hunits.trans ((Nat.le_add_right _ _).trans h.units)
  · have hcapacity := h.capacity
    have hconsumed := h.consumed
    omega

/-- The clocks agree, so the three buckets refill and reset at the same calls. -/
theorem advance (h : Covers b p q) (now : ℕ) :
    Covers (b.advance now) (p.advance now) (q.advance now) := by
  have hgain : (now - b.lastRefill) * p.capacity + (now - b.lastRefill) * q.capacity ≤
      (now - b.lastRefill) * b.capacity := by
    rw [← Nat.mul_add]
    exact Nat.mul_le_mul_left _ h.capacity
  have hfull : p.capacity * b.window + q.capacity * b.window ≤ b.capacity * b.window := by
    rw [← Nat.add_mul]
    exact Nat.mul_le_mul_right _ h.capacity
  have hunits := h.units
  have hleft := h.withinLeft.advance now
  have hright := h.withinRight.advance now
  unfold TokenBucket.advance at hleft hright ⊢
  rw [h.windows.1, h.refills.1, h.starts.1] at hleft ⊢
  rw [h.windows.2, h.refills.2, h.starts.2] at hright ⊢
  by_cases hsame : now - b.lastRefill = 0
  · rw [if_pos hsame, if_pos hsame, if_pos hsame]
    exact h
  rw [if_neg hsame] at hleft hright ⊢
  rw [if_neg hsame, if_neg hsame]
  by_cases hover : b.window ≤ now - b.windowStart
  · rw [if_pos hover] at hleft hright ⊢
    rw [if_pos hover, if_pos hover]
    refine ⟨⟨rfl, rfl⟩, ⟨rfl, rfl⟩, ⟨rfl, rfl⟩, h.capacity, hleft, hright, ?_, le_rfl⟩
    dsimp only
    omega
  · rw [if_neg hover] at hleft hright ⊢
    rw [if_neg hover, if_neg hover]
    refine ⟨⟨rfl, rfl⟩, ⟨rfl, rfl⟩, ⟨rfl, rfl⟩, h.capacity, hleft, hright, ?_, h.consumed⟩
    dsimp only
    omega

theorem pay (h : Covers b p q) {weight : ℕ} (hgrants : p.Grants weight) :
    Covers (b.pay weight) (p.pay weight) q where
  windows := h.windows
  refills := h.refills
  starts := h.starts
  capacity := h.capacity
  withinLeft := h.withinLeft.pay hgrants
  withinRight := h.withinRight
  units := by
    have hpaid := hgrants.1
    have hunits := h.units
    have hwindow := h.windows.1
    unfold TokenBucket.pay
    rw [hwindow] at hpaid ⊢
    dsimp only
    omega
  consumed := by
    have hconsumed := h.consumed
    unfold TokenBucket.pay
    dsimp only
    omega

end Covers

end TokenBucket

end CopyTrade.Foundation
