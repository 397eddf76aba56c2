import Launa.Server.StateHistory
import Launa.Server.Timestamps

/-!
# The sample that stands for the last report

`insert_temperature_sample` drops a report that comes soon after the last sample and has not
changed. A reading that is unknown counts as unchanged, also where the sample has it: then the
sample goes on to show the temperature that the report does not know any more. This is the only way
in which the sample can fail to show the last report (`tracksReports_iff`).
-/

namespace Launa.Server

open ChangeLog Run

/-- The arguments of `insert_temperature_sample`, and the time of the call. -/
structure TemperatureReport where
  deviceId : String
  currentTemp : Option ℚ
  setTemp : Option ℚ
  now : String

/-- The sample has the set temperature of the report, and the current one but for less than
`TEMP_MIN_DELTA`. -/
structure TemperatureSample.Shows (sample : TemperatureSample) (report : TemperatureReport) :
    Prop where
  setTemp_eq : sample.setTemp = report.setTemp
  isSome_eq : sample.currentTemp.isSome = report.currentTemp.isSome
  near : ∀ cur last, report.currentTemp = some cur → sample.currentTemp = some last →
    |cur - last| < tempMinDelta

/-- The report comes soon after the sample and what it knows has not changed, but it does not know a
reading that the sample has. -/
structure TemperatureSample.Outlives (parse : String → Option ℤ) (sample : TemperatureSample)
    (report : TemperatureReport) : Prop where
  soon : StateHistory.elapsedSecs parse report.now sample.receivedAt < tempSampleMinIntervalSecs
  current : report.currentTemp = none ∨ ∃ cur last, report.currentTemp = some cur ∧
    sample.currentTemp = some last ∧ |cur - last| < tempMinDelta
  set : report.setTemp = none ∨ report.setTemp = sample.setTemp
  unknown : report.currentTemp = none ∧ sample.currentTemp ≠ none ∨
    report.setTemp = none ∧ sample.setTemp ≠ none

namespace StateHistory

/-- `insert_temperature_sample`. -/
def insertReport (parse : String → Option ℤ) (store : StateHistory) (report : TemperatureReport) :
    StateHistory :=
  store.insertTemperatureSample parse report.deviceId report.currentTemp report.setTemp report.now

/-- The last sample of the device does not outlive the report. -/
def Refreshes (parse : String → Option ℤ) (store : StateHistory) (report : TemperatureReport) :
    Prop :=
  ∀ last, store.getLatestTemperature report.deviceId = some last → ¬ last.Outlives parse report

/-- The last sample of each device shows its last report. -/
def Tracks (store : StateHistory) (reports : List TemperatureReport) : Prop :=
  ∀ deviceId report, latest TemperatureReport.deviceId id reports deviceId = some report →
    ∃ sample, store.getLatestTemperature deviceId = some sample ∧ sample.Shows report

/-! ## One report -/

/-- A temperature has not changed if it is missing or near the last one. -/
theorem tempChanged_eq_false_iff (cur last : Option ℚ) :
    tempChanged cur last = false ↔
      cur = none ∨ ∃ c l, cur = some c ∧ last = some l ∧ |c - l| < tempMinDelta := by
  cases cur <;> cases last <;> simp [tempChanged]

/-- A set temperature has not changed if it is missing or the last one. -/
theorem setChanged_eq_false_iff (cur last : Option ℚ) :
    setChanged cur last = false ↔ cur = none ∨ cur = last := by
  cases cur <;> cases last <;> simp [setChanged]

/-- A sample is held back if it is early and neither temperature has changed. -/
theorem shouldInsert_eq_false_iff (parse : String → Option ℤ) (last : TemperatureSample)
    (cur set : Option ℚ) (now : String) :
    shouldInsert parse last cur set now = false ↔
      elapsedSecs parse now last.receivedAt < tempSampleMinIntervalSecs ∧
        (cur = none ∨ ∃ c l, cur = some c ∧ last.currentTemp = some l ∧ |c - l| < tempMinDelta) ∧
          (set = none ∨ set = last.setTemp) := by
  unfold shouldInsert
  rw [Bool.or_eq_false_iff, Bool.or_eq_false_iff, decide_eq_false_iff_not, not_le,
    tempChanged_eq_false_iff, setChanged_eq_false_iff, and_assoc]

/-- The last sample is the one that is inserted, or stays. -/
theorem getLast?_insertSample (parse : String → Option ℤ) (deque : List TemperatureSample)
    (cur set : Option ℚ) (now : String) :
    (insertSample parse deque cur set now).getLast? =
      match deque.getLast? with
      | none => some ⟨cur, set, now⟩
      | some last => if shouldInsert parse last cur set now then some ⟨cur, set, now⟩
        else some last := by
  unfold insertSample
  cases hlast : deque.getLast? with
  | none => exact getLast?_pushCapped _ _ _
  | some last =>
    dsimp only
    split
    · exact getLast?_pushCapped _ _ _
    · exact hlast

/-- After a report its device has the sample that was kept or the one that was inserted. -/
theorem getLatestTemperature_insertReport (parse : String → Option ℤ) (store : StateHistory)
    (report : TemperatureReport) :
    (store.insertReport parse report).getLatestTemperature report.deviceId =
      match store.getLatestTemperature report.deviceId with
      | none => some ⟨report.currentTemp, report.setTemp, report.now⟩
      | some last =>
        if shouldInsert parse last report.currentTemp report.setTemp report.now then
          some ⟨report.currentTemp, report.setTemp, report.now⟩
        else some last := by
  unfold insertReport insertTemperatureSample getLatestTemperature
  dsimp only
  rw [AList.lookup_insert, Option.bind_some, getLast?_insertSample]
  cases store.temperatures.lookup report.deviceId <;> rfl

/-- A report leaves the samples of other devices alone. -/
theorem getLatestTemperature_insertReport_of_ne (parse : String → Option ℤ) (store : StateHistory)
    (report : TemperatureReport) {deviceId : String} (h : report.deviceId ≠ deviceId) :
    (store.insertReport parse report).getLatestTemperature deviceId =
      store.getLatestTemperature deviceId := by
  unfold insertReport insertTemperatureSample getLatestTemperature
  dsimp only
  rw [AList.lookup_insert_ne (Ne.symm h)]

end StateHistory

/-- The least change is not zero. -/
theorem tempMinDelta_pos : 0 < tempMinDelta := by norm_num [tempMinDelta]

namespace TemperatureSample

/-- The sample of a report shows it. -/
theorem shows_self (report : TemperatureReport) :
    (mk report.currentTemp report.setTemp report.now).Shows report where
  setTemp_eq := rfl
  isSome_eq := rfl
  near cur last hcur hlast := by
    obtain rfl := Option.some.inj (hcur.symm.trans hlast)
    rw [sub_self, abs_zero]
    exact tempMinDelta_pos

/-- A sample that is kept shows the report unless it outlives it. -/
theorem shows_iff_not_outlives {parse : String → Option ℤ} {sample : TemperatureSample}
    {report : TemperatureReport} (h : StateHistory.shouldInsert parse sample report.currentTemp
      report.setTemp report.now = false) :
    sample.Shows report ↔ ¬ sample.Outlives parse report := by
  obtain ⟨hsoon, hcurrent, hset⟩ := (StateHistory.shouldInsert_eq_false_iff _ _ _ _ _).1 h
  constructor
  · rintro hshows ⟨-, -, -, ⟨hnone, hsome⟩ | ⟨hnone, hsome⟩⟩
    · have hisSome := hshows.isSome_eq
      rw [hnone, Option.isSome_none, Option.isSome_eq_false_iff,
        Option.isNone_iff_eq_none] at hisSome
      exact hsome hisSome
    · exact hsome (hshows.setTemp_eq.trans hnone)
  · intro hnot
    have hknown : ¬ (report.currentTemp = none ∧ sample.currentTemp ≠ none) := fun hunknown =>
      hnot ⟨hsoon, hcurrent, hset, .inl hunknown⟩
    have hsetKnown : ¬ (report.setTemp = none ∧ sample.setTemp ≠ none) := fun hunknown =>
      hnot ⟨hsoon, hcurrent, hset, .inr hunknown⟩
    refine ⟨?_, ?_, ?_⟩
    · rcases hset with hnone | hsame
      · rw [hnone]
        exact Decidable.not_not.1 fun hsome => hsetKnown ⟨hnone, hsome⟩
      · exact hsame.symm
    · rcases hcurrent with hnone | ⟨cur, last, hcur, hlast, -⟩
      · rw [hnone, Decidable.not_not.1 fun hsome => hknown ⟨hnone, hsome⟩]
      · rw [hcur, hlast]
        rfl
    · intro c l hc hl
      rcases hcurrent with hnone | ⟨cur, last, hcur, hlast, hnear⟩
      · exact absurd (hnone.symm.trans hc) (Option.some_ne_none _).symm
      · obtain rfl := Option.some.inj (hcur.symm.trans hc)
        obtain rfl := Option.some.inj (hlast.symm.trans hl)
        exact hnear

end TemperatureSample

namespace StateHistory

/-- After a report the sample of its device shows it unless the sample from before outlives it. -/
theorem shows_insertReport_iff (parse : String → Option ℤ) (store : StateHistory)
    (report : TemperatureReport) :
    (∃ sample, (store.insertReport parse report).getLatestTemperature report.deviceId =
      some sample ∧ sample.Shows report) ↔ store.Refreshes parse report := by
  rw [getLatestTemperature_insertReport]
  unfold Refreshes
  cases store.getLatestTemperature report.deviceId with
  | none => exact iff_of_true ⟨_, rfl, TemperatureSample.shows_self report⟩ fun _ h => nomatch h
  | some last =>
    simp only [Option.some.injEq, forall_eq']
    cases h : shouldInsert parse last report.currentTemp report.setTemp report.now with
    | true =>
      refine iff_of_true ⟨_, rfl, TemperatureSample.shows_self report⟩ fun houtlives => ?_
      have hdropped := (shouldInsert_eq_false_iff _ _ _ _ _).2
        ⟨houtlives.soon, houtlives.current, houtlives.set⟩
      exact Bool.noConfusion (hdropped.symm.trans h)
    | false =>
      rw [← TemperatureSample.shows_iff_not_outlives h]
      constructor
      · rintro ⟨sample, hlast, hshows⟩
        obtain rfl := Option.some.inj hlast
        exact hshows
      · exact fun hshows => ⟨last, rfl, hshows⟩

/-- After every report the last sample of each device shows its last report exactly when no sample
outlives a report: when a report that knows less than the last sample does not come soon after it
without another change. -/
theorem tracksReports_iff (parse : String → Option ℤ) (store : StateHistory)
    (reports : List TemperatureReport) :
    (∀ pre post, reports = pre ++ post → ∀ deviceId report,
      latest TemperatureReport.deviceId id pre deviceId = some report →
        ∃ sample, (pre.foldl (insertReport parse) store).getLatestTemperature deviceId =
          some sample ∧ sample.Shows report) ↔
    Along (insertReport parse) (Refreshes parse) store reports := by
  refine along_iff_forall_seen (I := Tracks) (fun _ _ h => h) ?_ ?_ ?_ reports
  · intro store seen report _ h
    refine (store.shows_insertReport_iff parse report).1 (h report.deviceId report ?_)
    rw [latest_concat, if_pos rfl]
    rfl
  · intro store seen report h hrefreshes deviceId last hlast
    rw [latest_concat] at hlast
    by_cases hd : report.deviceId = deviceId
    · subst hd
      rw [if_pos rfl] at hlast
      obtain rfl := Option.some.inj hlast
      exact (store.shows_insertReport_iff parse _).2 hrefreshes
    · rw [if_neg hd] at hlast
      rw [store.getLatestTemperature_insertReport_of_ne parse report hd]
      exact h deviceId last hlast
  · intro deviceId report h
    exact absurd h (Option.some_ne_none _).symm

/-! ## A temperature that is not known any more -/

/-- A report on New Year. -/
def newYearReport (currentTemp : Option ℚ) : TemperatureReport :=
  ⟨"spa", currentTemp, some 38, (newYear 0 (by decide)).toRfc3339⟩

/-- The whole seconds between two instants. -/
theorem elapsedSecs_toRfc3339 {parse : String → Option ℤ}
    (hparse : ∀ t : Instant, parse t.toRfc3339 = some (t.nanos : ℤ)) (now last : Instant) :
    elapsedSecs parse now.toRfc3339 last.toRfc3339 =
      ((now.nanos : ℤ) - last.nanos).tdiv (10^9) := by
  unfold elapsedSecs
  rw [hparse, hparse, Option.bind_eq_bind, Option.bind_some, Option.bind_some, Option.getD_some]

/-- The temperature that is not known any more is still the one of the sample, since the report
comes at once and has the same set temperature. -/
theorem outlives_newYearReport {parse : String → Option ℤ}
    (hparse : ∀ t : Instant, parse t.toRfc3339 = some (t.nanos : ℤ)) :
    (TemperatureSample.mk (some 38) (some 38) (newYear 0 (by decide)).toRfc3339).Outlives parse
      (newYearReport none) where
  soon := by
    refine lt_of_eq_of_lt (elapsedSecs_toRfc3339 hparse _ _) ?_
    rw [sub_self, Int.zero_tdiv]
    decide
  current := .inl rfl
  set := .inr rfl
  unknown := .inl ⟨rfl, Option.some_ne_none _⟩

/-- A report that has lost its temperature is not shown by the sample before it. -/
theorem not_tracksReports : ¬ ∀ parse : String → Option ℤ,
    (∀ t : Instant, parse t.toRfc3339 = some (t.nanos : ℤ)) →
    ∀ (reports : List TemperatureReport) (times : List Instant),
      reports.map TemperatureReport.now = times.map Instant.toRfc3339 →
      (times.map Instant.nanos).Pairwise (· ≤ ·) →
      ∀ pre post, reports = pre ++ post → ∀ deviceId report,
        latest TemperatureReport.deviceId id pre deviceId = some report →
          ∃ sample, (pre.foldl (insertReport parse) .new).getLatestTemperature deviceId =
            some sample ∧ sample.Shows report := by
  intro h
  let parse : String → Option ℤ := fun text =>
    (Function.partialInv Instant.toRfc3339 text).map fun t => (t.nanos : ℤ)
  have hparse : ∀ t : Instant, parse t.toRfc3339 = some (t.nanos : ℤ) := fun t =>
    congrArg (Option.map _) (Function.partialInv_left Instant.toRfc3339_injective t)
  obtain ⟨sample, hsample, hshows⟩ := h parse hparse
    [newYearReport (some 38), newYearReport none] [newYear 0 (by decide), newYear 0 (by decide)]
    rfl (by simp) _ [] (List.append_nil _).symm "spa" (newYearReport none) rfl
  have hrefreshes := (shows_insertReport_iff parse (StateHistory.new.insertReport parse
    (newYearReport (some 38))) (newYearReport none)).1 ⟨sample, hsample, hshows⟩
  exact hrefreshes _ (getLatestTemperature_insertReport _ _ _) (outlives_newYearReport hparse)

end StateHistory

end Launa.Server
