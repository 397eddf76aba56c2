import Mathlib.Data.List.Basic

/-!
# Sliding windows

`Limited W n times` says that every interval of length `W` holds at most `n` of the times, wherever
it begins. Of times that come in order, it can be checked as they come: a time keeps the limit when
fewer than `n` came less than `W` before it (`limited_concat_iff`).
-/

namespace Launa.SlidingWindow

/-- Every interval of length `W` holds at most `n` of the times. -/
def Limited (W n : ℕ) (times : List ℕ) : Prop :=
  ∀ a, times.countP (fun t => a ≤ t ∧ t < a + W) ≤ n

/-- The times that came less than `W` before `now`. -/
def recentCount (W : ℕ) (times : List ℕ) (now : ℕ) : ℕ := times.countP fun t => now < t + W

variable {W n now : ℕ} {times later : List ℕ}

/-- No events meet every limit. -/
theorem limited_nil (W n : ℕ) : Limited W n [] := fun _ => Nat.zero_le _

/-- The events of two lists in a window add up. -/
@[simp] theorem recentCount_append (W : ℕ) (times later : List ℕ) (now : ℕ) :
    recentCount W (times ++ later) now = recentCount W times now + recentCount W later now :=
  List.countP_append

/-- Times that are all recent count in full. -/
theorem recentCount_eq_length (h : ∀ t ∈ times, now < t + W) :
    recentCount W times now = times.length :=
  List.countP_eq_length.2 fun t ht => decide_eq_true (h t ht)

/-- Times that are all old do not count. -/
theorem recentCount_eq_zero (h : ∀ t ∈ times, t + W ≤ now) : recentCount W times now = 0 :=
  List.countP_eq_zero.2 fun t ht => by
    have := h t ht
    simp only [decide_eq_true_eq]
    omega

/-- The earlier ones of some times are limited if all of them are. -/
theorem Limited.of_append (h : Limited W n (times ++ later)) : Limited W n times := fun a => by
  have ha := h a
  rw [List.countP_append] at ha
  omega

/-- A time not before the others keeps the limit exactly when there are fewer recent ones. -/
theorem limited_concat_iff (hW : 0 < W) (hle : ∀ t ∈ times, t ≤ now) (h : Limited W n times) :
    Limited W n (times ++ [now]) ↔ recentCount W times now < n := by
  constructor
  · intro hnow
    -- The interval that ends with the new time.
    have ha := hnow (now + 1 - W)
    have hrecent : recentCount W times now ≤
        times.countP fun t => now + 1 - W ≤ t ∧ t < now + 1 - W + W := by
      refine List.countP_mono_left fun t ht hrec => ?_
      have htle := hle t ht
      simp only [decide_eq_true_eq] at hrec ⊢
      omega
    have hlast : [now].countP (fun t => now + 1 - W ≤ t ∧ t < now + 1 - W + W) = 1 := by
      rw [List.countP_singleton, if_pos]
      simp only [decide_eq_true_eq]
      omega
    rw [List.countP_append, hlast] at ha
    omega
  · intro hrecent a
    rw [List.countP_append, List.countP_singleton]
    by_cases hin : a ≤ now ∧ now < a + W
    · -- What the interval holds before the new time is recent then.
      have hsub : times.countP (fun t => a ≤ t ∧ t < a + W) ≤ recentCount W times now := by
        refine List.countP_mono_left fun t _ ht => ?_
        simp only [decide_eq_true_eq] at ht ⊢
        omega
      rw [if_pos (decide_eq_true hin)]
      omega
    · rw [if_neg (by simpa using hin)]
      exact h a

end Launa.SlidingWindow
