import Launa.Core.Types
import Launa.Lib.Run

/-!
# What a log site suppresses

A log site is checked with the time and a cooldown, and it emits or suppresses. `LogSite` keeps,
beside the site's own state, what it has done: when it last emitted, and how many events it has
suppressed since. It is to emit when the cooldown has passed since then, with that number
(`Lossless`). The time zero stands for no emission yet, so an emission at zero does not count as
one, and the counter of suppressed events has 32 bits (`lossless_iff`).
-/

namespace Launa.Core

/-- A log site, the time at which it last emitted, and the events suppressed since. -/
structure LogSite where
  log : RateLog
  lastPermitted : Option UInt32
  suppressed : ℕ

namespace LogSite

/-- A new log site. -/
def new : LogSite := ⟨.new, none, 0⟩

/-- A check at a time, with a cooldown, both in seconds. -/
def observe (site : LogSite) (c : UInt32 × UInt32) : LogSite :=
  match site.log.check c.1 c.2 with
  | (.ok _, log) => ⟨log, some c.1, 0⟩
  | (.error _, log) => ⟨log, site.lastPermitted, site.suppressed + 1⟩

/-- The cooldown of a check is over, if there was an emission. -/
def CooledDown (site : LogSite) (c : UInt32 × UInt32) : Prop :=
  ∀ t ∈ site.lastPermitted, c.2.toNat ≤ elapsedSince c.1.toNat t.toNat

/-- The check emits only after the cooldown, with the number of events suppressed, and it suppresses
only during the cooldown. -/
def Lossless (site : LogSite) (c : UInt32 × UInt32) : Prop :=
  match (site.log.check c.1 c.2).1 with
  | .ok count => site.CooledDown c ∧ count.toNat = site.suppressed
  | .error _ => ¬ site.CooledDown c

/-- A check after an emission at zero has its cooldown over, and one with its cooldown over has
fewer events before it than the counter can hold. -/
def Countable (site : LogSite) (c : UInt32 × UInt32) : Prop :=
  (site.lastPermitted = some 0 → c.2 ≤ c.1) ∧ (site.CooledDown c → site.suppressed < 2 ^ 32)

/-- The site's own state is of the last emission and of the events since, of which there are none
while the time is zero. -/
structure Agrees (site : LogSite) : Prop where
  last : site.log.lastEmitSecs = site.lastPermitted.getD 0
  suppressed : site.log.suppressed = UInt32.ofNat site.suppressed
  zero : site.log.lastEmitSecs = 0 → site.suppressed = 0

variable {site : LogSite}

/-- A new site has seen nothing. -/
theorem agrees_new : new.Agrees := ⟨rfl, rfl, fun _ => rfl⟩

/-- The time since the last emission, as the site computes it. -/
theorem toNat_elapsed (now last : UInt32) :
    (if last ≤ now then now - last else 0).toNat = elapsedSince now.toNat last.toNat := by
  unfold elapsedSince
  by_cases hle : last ≤ now
  · rw [if_pos hle, UInt32.toNat_sub_of_le _ _ hle]
  · have hlt := UInt32.lt_iff_toNat_lt.1 (UInt32.not_le.1 hle)
    rw [if_neg hle, UInt32.toNat_zero]
    omega

/-- Once the site's time is not zero, it is that of the last emission. -/
theorem Agrees.lastPermitted (h : site.Agrees) (hzero : site.log.lastEmitSecs ≠ 0) :
    site.lastPermitted = some site.log.lastEmitSecs := by
  have hlast := h.last
  cases hpermitted : site.lastPermitted with
  | none =>
    rw [hpermitted] at hlast
    exact absurd hlast hzero
  | some t =>
    rw [hpermitted] at hlast
    rw [hlast]
    rfl

/-- A site that has emitted is cooled down once the cooldown has passed since. -/
theorem Agrees.cooledDown_iff (h : site.Agrees) (hzero : site.log.lastEmitSecs ≠ 0)
    (c : UInt32 × UInt32) : site.CooledDown c ↔
      c.2 ≤ if site.log.lastEmitSecs ≤ c.1 then c.1 - site.log.lastEmitSecs else 0 := by
  rw [UInt32.le_iff_toNat_le, toNat_elapsed, CooledDown, h.lastPermitted hzero]
  simp

/-- The site emits while its time is zero, and after the cooldown. -/
theorem Agrees.check_emits (h : site.Agrees) {c : UInt32 × UInt32}
    (hc : site.log.lastEmitSecs = 0 ∨ site.CooledDown c) :
    site.log.check c.1 c.2 = (.ok site.log.suppressed, ⟨c.1, 0⟩) := by
  unfold RateLog.check
  refine if_pos ?_
  by_cases hzero : site.log.lastEmitSecs = 0
  · exact .inl hzero
  · exact .inr ((h.cooledDown_iff hzero c).1 (hc.resolve_left hzero))

/-- The site suppresses during the cooldown. -/
theorem Agrees.check_suppresses (h : site.Agrees) {c : UInt32 × UInt32}
    (hzero : site.log.lastEmitSecs ≠ 0) (hc : ¬ site.CooledDown c) :
    site.log.check c.1 c.2 = (.error (site.log.suppressed + 1),
      { site.log with suppressed := site.log.suppressed + 1 }) := by
  unfold RateLog.check
  refine if_neg (not_or.2 ⟨hzero, ?_⟩)
  exact fun hle => hc ((h.cooledDown_iff hzero c).2 hle)

/-- A message keeps site and history in agreement. -/
theorem Agrees.observe (h : site.Agrees) (c : UInt32 × UInt32) : (site.observe c).Agrees := by
  unfold LogSite.observe
  by_cases hc : site.log.lastEmitSecs = 0 ∨ site.CooledDown c
  · rw [h.check_emits hc]
    exact ⟨rfl, rfl, fun _ => rfl⟩
  · obtain ⟨hzero, hcooldown⟩ := not_or.1 hc
    rw [h.check_suppresses hzero hcooldown]
    refine ⟨h.last, ?_, fun h0 => absurd h0 hzero⟩
    dsimp only
    rw [h.suppressed, UInt32.ofNat_add]
    rfl

/-- The count that the site hands out is right while it fits. -/
theorem Agrees.count_iff (h : site.Agrees) :
    site.log.suppressed.toNat = site.suppressed ↔ site.suppressed < 2 ^ 32 := by
  rw [h.suppressed, UInt32.toNat_ofNat']
  exact ⟨fun heq => heq ▸ Nat.mod_lt _ (by decide), Nat.mod_eq_of_lt⟩

/-- No suppressed message is lost exactly if the counter has room. -/
theorem lossless_iff_countable (h : site.Agrees) (c : UInt32 × UInt32) :
    site.Lossless c ↔ site.Countable c := by
  unfold Lossless Countable
  by_cases hzero : site.log.lastEmitSecs = 0
  · -- It emits, whether it has emitted at zero or not at all.
    have hnone : site.suppressed = 0 := h.zero hzero
    have hcount : site.log.suppressed.toNat = site.suppressed :=
      h.count_iff.2 (hnone ▸ by decide)
    have hcooled : site.CooledDown c ↔ (site.lastPermitted = some 0 → c.2 ≤ c.1) := by
      have hlast := h.last.symm.trans hzero
      unfold CooledDown elapsedSince
      cases hpermitted : site.lastPermitted with
      | none => simp
      | some t =>
        rw [hpermitted] at hlast
        obtain rfl : t = 0 := hlast
        simp [UInt32.le_iff_toNat_le]
    rw [h.check_emits (.inl hzero)]
    constructor
    · exact fun hlossless => ⟨hcooled.1 hlossless.1, fun _ => hnone ▸ by decide⟩
    · exact fun hcountable => ⟨hcooled.2 hcountable.1, hcount⟩
  · have hsome : site.lastPermitted ≠ some 0 := fun h0 =>
      hzero (Option.some.inj ((h.lastPermitted hzero).symm.trans h0))
    by_cases hcooldown : site.CooledDown c
    · rw [h.check_emits (.inr hcooldown)]
      constructor
      · exact fun hlossless => ⟨fun h0 => absurd h0 hsome, fun _ => h.count_iff.1 hlossless.2⟩
      · exact fun hcountable => ⟨hcooldown, h.count_iff.2 (hcountable.2 hcooldown)⟩
    · rw [h.check_suppresses hzero hcooldown]
      exact iff_of_true hcooldown ⟨fun h0 => absurd h0 hsome, fun hc => absurd hc hcooldown⟩

/-- A log site loses no count over a run, and keeps its cooldown, exactly when no check comes within
its cooldown of an emission at time zero, and no emission is due after `2^32` suppressed events. -/
theorem lossless_iff (checks : List (UInt32 × UInt32)) :
    (∀ pre c post, checks = pre ++ c :: post → (pre.foldl observe new).Lossless c) ↔
      Run.Along observe Countable new checks := by
  rw [Run.forall_split_iff_along]
  exact Run.along_congr_of_invariant (fun site c h => lossless_iff_countable h c)
    (fun site c h => h.observe c) agrees_new

/-- A second event one second after an emission at zero is emitted too, whatever the cooldown. -/
theorem not_lossless : ¬ (new.observe (0, 5)).Lossless (1, 5) :=
  fun h => absurd (h.1 0 rfl) (by decide)

end LogSite

end Launa.Core
