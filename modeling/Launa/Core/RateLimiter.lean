import Launa.Core.Types
import Launa.Lib.Run
import Launa.Lib.SlidingWindow

/-!
# The rate limiter

`RateLimiter` of `rate_limiter.rs` counts the checks of a window, and begins a new window with the
first check that comes after the last one is over. So a window that is filled late and the next one
filled early allow twice the maximum in a short time. The checks are limited in every interval
exactly when each of the first ten of a window leaves room for those that the window before it
allowed and that are still recent (`slidingLimit_iff`).
-/

namespace Launa.Core

open SlidingWindow

/-- `RATE_LIMIT_MAX_COMMANDS`. -/
def rateLimitMaxCommands : ℕ := 10

/-- `RATE_LIMIT_WINDOW_MS`. -/
def rateLimitWindowMs : ℕ := 10000

/-- The checks of the current window, and its start. The count has the 32 bits of a `usize`. -/
structure RateLimiter where
  count : UInt32
  windowStartMs : ℕ
  deriving DecidableEq

namespace RateLimiter

/-- `RateLimiter::new`. -/
def new : RateLimiter := ⟨0, 0⟩

/-- `check`: a window that has expired is reset. -/
def resetExpired (self : RateLimiter) (nowMs : ℕ) : RateLimiter :=
  if rateLimitWindowMs ≤ nowMs - self.windowStartMs then ⟨0, nowMs⟩ else self

/-- `RateLimiter::check`. -/
def check (self : RateLimiter) (nowMs : ℕ) : Bool × RateLimiter :=
  let self := self.resetExpired nowMs
  let self := { self with count := self.count + 1 }
  (self.count.toNat ≤ rateLimitMaxCommands, self)

/-! ## The limit over all intervals -/

/-- A limiter, and the times at which it has allowed a check. -/
structure History where
  limiter : RateLimiter
  allowed : List ℕ

/-- A new limiter. -/
def History.new : History := ⟨.new, []⟩

/-- A check at a time. -/
def History.observe (h : History) (nowMs : ℕ) : History where
  limiter := (h.limiter.check nowMs).2
  allowed := if (h.limiter.check nowMs).1 then h.allowed ++ [nowMs] else h.allowed

/-- A check is refused only if the maximum was allowed in the window before it. -/
def History.RefusesAtLimit (h : History) (nowMs : ℕ) : Prop :=
  (h.limiter.check nowMs).1 = false →
    rateLimitMaxCommands ≤ recentCount rateLimitWindowMs h.allowed nowMs

/-- Every interval of the window's length has at most the maximum of allowed checks, wherever it
begins, and a check is refused only if the maximum was allowed in the window before it. -/
def SlidingLimit (times : List ℕ) : Prop :=
  Limited rateLimitWindowMs rateLimitMaxCommands (times.foldl History.observe .new).allowed ∧
    ∀ pre nowMs post, times = pre ++ nowMs :: post →
      (pre.foldl History.observe .new).RefusesAtLimit nowMs

/-! ## The windows -/

/-- The start of the current window, and the times of the checks in the window before it and in
it. -/
structure Windows where
  start : ℕ
  previous : List ℕ
  current : List ℕ

/-- Before the first check. -/
def Windows.new : Windows := ⟨0, [], []⟩

/-- The window of a check, before the check is in it. -/
def Windows.at (w : Windows) (nowMs : ℕ) : Windows :=
  if w.start + rateLimitWindowMs ≤ nowMs then ⟨nowMs, w.current, []⟩ else w

/-- The windows after a check. -/
def Windows.check (w : Windows) (nowMs : ℕ) : Windows :=
  { w.at nowMs with current := (w.at nowMs).current ++ [nowMs] }

/-- The check is one of the window's first ten with room for those that the window before it allowed
and that came less than a window's length before; or it is a later one, but not so late that the
count wraps. -/
def Windows.Spaced (w : Windows) (nowMs : ℕ) : Prop :=
  let w := w.check nowMs
  w.current.length < 2 ^ 32 ∧
    (w.current.length ≤ rateLimitMaxCommands →
      recentCount rateLimitWindowMs (w.previous.take rateLimitMaxCommands) nowMs +
        w.current.length ≤ rateLimitMaxCommands)

/-- The limiter is in its window, and it has allowed the first ten checks of this window, those of
the one before it, and older ones. -/
structure Agrees (h : History) (w : Windows) : Prop where
  start : h.limiter.windowStartMs = w.start
  count : h.limiter.count = UInt32.ofNat w.current.length
  fits : w.current.length < 2 ^ 32
  previous : ∀ t ∈ w.previous, t < w.start
  current : ∀ t ∈ w.current, w.start ≤ t ∧ t < w.start + rateLimitWindowMs
  allowed : ∃ older, (∀ t ∈ older, t + rateLimitWindowMs ≤ w.start) ∧
    h.allowed = older ++ w.previous.take rateLimitMaxCommands ++
      w.current.take rateLimitMaxCommands

variable {h : History} {w : Windows} {nowMs : ℕ}

/-- The new limiter is the empty history. -/
theorem agrees_new : Agrees .new .new :=
  ⟨rfl, rfl, by decide, by simp [Windows.new], by simp [Windows.new], [], by simp, rfl⟩

/-- The window of a check starts at most a window's length before it. -/
theorem Windows.at_start (hstart : w.start ≤ nowMs) :
    (w.at nowMs).start ≤ nowMs ∧ nowMs < (w.at nowMs).start + rateLimitWindowMs := by
  have hpos : 0 < rateLimitWindowMs := by decide
  unfold Windows.at
  split
  · dsimp only
    omega
  · omega

/-- The limiter resets its window with the first check of a new one. -/
theorem Agrees.resetExpired (hw : Agrees h w) (hstart : w.start ≤ nowMs) :
    Agrees ⟨h.limiter.resetExpired nowMs, h.allowed⟩ (w.at nowMs) := by
  have hover : rateLimitWindowMs ≤ nowMs - h.limiter.windowStartMs ↔
      w.start + rateLimitWindowMs ≤ nowMs := by
    rw [hw.start]
    omega
  unfold RateLimiter.resetExpired Windows.at
  simp only [hover]
  split
  · rename_i hexpired
    obtain ⟨older, holder, hallowed⟩ := hw.allowed
    constructor
    · rfl
    · rfl
    · exact Nat.pow_pos (by decide)
    · intro t ht
      have hcurrent := hw.current t ht
      dsimp only
      omega
    · exact fun t ht => absurd ht List.not_mem_nil
    · -- What was allowed in the window before the last one is old now.
      refine ⟨older ++ w.previous.take rateLimitMaxCommands, ?_, ?_⟩
      · rw [List.forall_mem_append]
        dsimp only
        constructor
        · intro t ht
          have hold := holder t ht
          omega
        · intro t ht
          have hprevious := hw.previous t (List.mem_of_mem_take ht)
          omega
      · rw [List.take_nil, List.append_nil]
        exact hallowed
  · exact hw

/-- The allowed checks that are recent: those of this window, and what is recent of the one before
it. -/
theorem Agrees.recentCount (hw : Agrees h w) (hstart : w.start ≤ nowMs)
    (hin : nowMs < w.start + rateLimitWindowMs) :
    recentCount rateLimitWindowMs h.allowed nowMs =
      recentCount rateLimitWindowMs (w.previous.take rateLimitMaxCommands) nowMs +
        min rateLimitMaxCommands w.current.length := by
  obtain ⟨older, holder, hallowed⟩ := hw.allowed
  have hold : SlidingWindow.recentCount rateLimitWindowMs older nowMs = 0 :=
    recentCount_eq_zero fun t ht => Nat.le_trans (holder t ht) hstart
  have hcurrent : SlidingWindow.recentCount rateLimitWindowMs
      (w.current.take rateLimitMaxCommands) nowMs =
        (w.current.take rateLimitMaxCommands).length :=
    recentCount_eq_length fun t ht => by
      have hle := (hw.current t (List.mem_of_mem_take ht)).1
      omega
  rw [hallowed, recentCount_append, recentCount_append, hold, hcurrent, List.length_take,
    Nat.zero_add]

/-- A check is allowed when the count of its window, as 32 bits hold it, is within the maximum. -/
theorem Agrees.check_fst (hw : Agrees h w) (hstart : w.start ≤ nowMs) :
    (h.limiter.check nowMs).1 =
      decide (((w.check nowMs).current.length) % 2 ^ 32 ≤ rateLimitMaxCommands) := by
  have hcount : (h.limiter.resetExpired nowMs).count + 1 =
      UInt32.ofNat (w.check nowMs).current.length := by
    calc (h.limiter.resetExpired nowMs).count + 1
        = UInt32.ofNat (w.at nowMs).current.length + 1 := by
          rw [(hw.resetExpired hstart).count]
      _ = UInt32.ofNat (w.check nowMs).current.length := by
          rw [Windows.check, List.length_append, UInt32.ofNat_add]
          rfl
  unfold RateLimiter.check
  dsimp only
  rw [hcount, UInt32.toNat_ofNat']

/-- A check is refused only at the limit. -/
theorem Agrees.refusesAtLimit (hw : Agrees h w) (hstart : w.start ≤ nowMs) :
    h.RefusesAtLimit nowMs := by
  intro hrefused
  have hreset := hw.resetExpired hstart
  have hat := Windows.at_start hstart
  have hrecent := hreset.recentCount hat.1 hat.2
  have hfits := hreset.fits
  rw [hw.check_fst hstart, decide_eq_false_iff_not, Windows.check, List.length_append,
    List.length_singleton] at hrefused
  have hmod := Nat.mod_le ((w.at nowMs).current.length + 1) (2 ^ 32)
  dsimp only at hrecent
  omega

/-- A check that is allowed has room exactly when it is spaced from the window before it, and one
that is refused is. -/
theorem Agrees.spaced_iff (hw : Agrees h w) (hstart : w.start ≤ nowMs) :
    w.Spaced nowMs ↔ ((h.limiter.check nowMs).1 = true →
      SlidingWindow.recentCount rateLimitWindowMs h.allowed nowMs < rateLimitMaxCommands) := by
  have hreset := hw.resetExpired hstart
  have hat := Windows.at_start hstart
  have hrecent := hreset.recentCount hat.1 hat.2
  have hfits := hreset.fits
  have hmax : rateLimitMaxCommands = 10 := rfl
  dsimp only at hrecent
  rw [hw.check_fst hstart, decide_eq_true_eq, hrecent]
  simp only [Windows.Spaced, Windows.check, List.length_append, List.length_singleton]
  generalize SlidingWindow.recentCount rateLimitWindowMs
    ((w.at nowMs).previous.take rateLimitMaxCommands) nowMs = recent
  rcases Nat.lt_or_eq_of_le (Nat.succ_le_of_lt hfits) with hlt | heq
  · rw [Nat.mod_eq_of_lt hlt]
    omega
  · -- The count wraps, and the check is allowed after ten others.
    rw [Nat.succ_eq_add_one] at heq
    rw [heq, Nat.mod_self]
    omega

/-- After a spaced check the limiter agrees with the windows. -/
theorem Agrees.observe (hw : Agrees h w) (hstart : w.start ≤ nowMs) (hspaced : w.Spaced nowMs) :
    Agrees (h.observe nowMs) (w.check nowMs) := by
  have hreset := hw.resetExpired hstart
  have hat := Windows.at_start hstart
  obtain ⟨older, holder, hallowed⟩ := hreset.allowed
  have hlength : (w.check nowMs).current.length = (w.at nowMs).current.length + 1 := by
    rw [Windows.check, List.length_append, List.length_singleton]
  constructor
  · exact hreset.start
  · calc (h.observe nowMs).limiter.count
        = UInt32.ofNat (w.at nowMs).current.length + 1 := by
          rw [← hreset.count]
          rfl
      _ = UInt32.ofNat (w.check nowMs).current.length := by
          rw [hlength, UInt32.ofNat_add]
          rfl
  · exact hspaced.1
  · exact hreset.previous
  · intro t ht
    rcases List.mem_append.1 ht with ht | ht
    · exact hreset.current t ht
    · rw [List.mem_singleton.1 ht]
      exact hat
  · refine ⟨older, holder, ?_⟩
    unfold History.observe
    dsimp only at hallowed ⊢
    rw [hw.check_fst hstart, Nat.mod_eq_of_lt hspaced.1, hlength, hallowed, Windows.check]
    dsimp only
    by_cases hok : (w.at nowMs).current.length + 1 ≤ rateLimitMaxCommands
    · have hcurrent : (w.at nowMs).current.take rateLimitMaxCommands = (w.at nowMs).current :=
        List.take_of_length_le (by omega)
      have hboth : ((w.at nowMs).current ++ [nowMs]).take rateLimitMaxCommands =
          (w.at nowMs).current ++ [nowMs] :=
        List.take_of_length_le (by rw [List.length_append, List.length_singleton]; exact hok)
      rw [if_pos (decide_eq_true hok), hcurrent, hboth, List.append_assoc]
    · rw [if_neg (by simpa using hok), List.take_append_of_le_length (by omega)]

/-! ## All runs -/

/-- The times that a limiter has allowed stay allowed. -/
theorem allowed_prefix (h : History) (times : List ℕ) :
    ∃ later, (times.foldl History.observe h).allowed = h.allowed ++ later := by
  induction times generalizing h with
  | nil => exact ⟨[], (List.append_nil _).symm⟩
  | cons nowMs times ih =>
    obtain ⟨later, hlater⟩ := ih (h.observe nowMs)
    rw [List.foldl_cons, hlater, History.observe]
    dsimp only
    split
    · exact ⟨[nowMs] ++ later, List.append_assoc _ _ _⟩
    · exact ⟨later, rfl⟩

/-- What a check leaves within the limit. -/
theorem limited_observe (hle : ∀ t ∈ h.allowed, t ≤ nowMs)
    (hlimited : Limited rateLimitWindowMs rateLimitMaxCommands h.allowed) :
    Limited rateLimitWindowMs rateLimitMaxCommands (h.observe nowMs).allowed ↔
      ((h.limiter.check nowMs).1 = true →
        SlidingWindow.recentCount rateLimitWindowMs h.allowed nowMs < rateLimitMaxCommands) := by
  unfold History.observe
  dsimp only
  split
  · rename_i hok
    rw [limited_concat_iff (by decide) hle hlimited]
    exact ⟨fun hlt _ => hlt, fun hlt => hlt hok⟩
  · rename_i hrefused
    exact iff_of_true hlimited fun hok => absurd hok hrefused

/-- From a limiter that agrees with its windows, later checks keep the limit exactly when they are
spaced, and then they are refused only at the limit. -/
theorem Agrees.run {times : List ℕ} (hw : Agrees h w) (hsorted : times.Pairwise (· ≤ ·))
    (hstart : ∀ t ∈ times, w.start ≤ t) (hle : ∀ t ∈ times, ∀ t' ∈ h.allowed, t' ≤ t)
    (hlimited : Limited rateLimitWindowMs rateLimitMaxCommands h.allowed) :
    (Limited rateLimitWindowMs rateLimitMaxCommands
        (times.foldl History.observe h).allowed ↔ Run.Along Windows.check Windows.Spaced w times) ∧
      (Run.Along Windows.check Windows.Spaced w times →
        Run.Along History.observe History.RefusesAtLimit h times) := by
  induction times generalizing h w with
  | nil => exact ⟨iff_of_true hlimited trivial, fun _ => trivial⟩
  | cons nowMs times ih =>
    obtain ⟨hfirst, hrest⟩ := List.pairwise_cons.1 hsorted
    have hnow := hstart nowMs List.mem_cons_self
    have hstep := limited_observe (hle nowMs List.mem_cons_self) hlimited
    rw [← hw.spaced_iff hnow] at hstep
    by_cases hspaced : w.Spaced nowMs
    · have hstart' : ∀ t ∈ times, (w.check nowMs).start ≤ t := fun t ht =>
        Nat.le_trans (Windows.at_start hnow).1 (hfirst t ht)
      have hle' : ∀ t ∈ times, ∀ t' ∈ (h.observe nowMs).allowed, t' ≤ t := by
        intro t ht t' ht'
        unfold History.observe at ht'
        dsimp only at ht'
        split at ht'
        · rcases List.mem_append.1 ht' with ht' | ht'
          · exact hle t (List.mem_cons_of_mem _ ht) t' ht'
          · rw [List.mem_singleton.1 ht']
            exact hfirst t ht
        · exact hle t (List.mem_cons_of_mem _ ht) t' ht'
      obtain ⟨hiff, hrefuses⟩ :=
        ih (hw.observe hnow hspaced) hrest hstart' hle' (hstep.2 hspaced)
      rw [List.foldl_cons, hiff, Run.along_cons, Run.along_cons, and_iff_right hspaced]
      exact ⟨Iff.rfl, fun h => ⟨hw.refusesAtLimit hnow, hrefuses h⟩⟩
    · -- The check is allowed beyond the limit, and it stays allowed.
      have hnot : ¬ Run.Along Windows.check Windows.Spaced w (nowMs :: times) :=
        fun h => hspaced h.1
      refine ⟨iff_of_false ?_ hnot, fun h => absurd h hnot⟩
      intro hall
      obtain ⟨later, hlater⟩ := allowed_prefix (h.observe nowMs) times
      rw [List.foldl_cons, hlater] at hall
      exact hspaced (hstep.1 hall.of_append)

/-- At times that do not decrease, the checks are limited in every interval of the window's length,
and refused only at the limit, exactly when each of the first ten of a window leaves room for those
of the window before it that are still recent, and no window has `2 ^ 32` checks. -/
theorem slidingLimit_iff (times : List ℕ) (hsorted : times.Pairwise (· ≤ ·)) :
    SlidingLimit times ↔ Run.Along Windows.check Windows.Spaced .new times := by
  obtain ⟨hiff, hrefuses⟩ := agrees_new.run hsorted (fun _ _ => Nat.zero_le _)
    (fun _ _ _ h => absurd h List.not_mem_nil) (limited_nil _ _)
  unfold SlidingLimit
  rw [hiff, Run.forall_split_iff_along]
  exact and_iff_left_of_imp hrefuses

/-- Three checks in two windows. -/
theorem slidingLimit_three :
    SlidingLimit [0, 5000, 12000] ↔
      Run.Along Windows.check Windows.Spaced .new [0, 5000, 12000] :=
  slidingLimit_iff [0, 5000, 12000] (by decide)

/-- Ten checks at the end of a window and ten at the beginning of the next are all allowed, within a
millisecond. -/
theorem not_slidingLimit :
    ¬ SlidingLimit (List.replicate 10 9999 ++ List.replicate 10 10000) :=
  fun h => absurd (h.1 9999) (by decide)

end RateLimiter

end Launa.Core
