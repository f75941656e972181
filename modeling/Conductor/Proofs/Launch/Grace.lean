import Conductor.Proofs.Duration
import Conductor.Proofs.Launch.Ending
import Conductor.Proofs.Launch.Shutdown

/-!
# The grace period

A configuration is checked before a launch, its grace period is worked out when the shutdown
begins, and then the end of that period must be a point in time. What the check lets through has
a grace period unless it is `2 ^ 64` seconds or more (`Config.grace?_eq_none_iff`), and a shutdown
begins as long as its grace period ends before `2 ^ 63` seconds (`Config.deadline?_of_grace?`,
`Launch.beginShutdown_of_deadline`). The check asks for neither.
-/

namespace Conductor

namespace Config

/-- The check finds nothing worse than what deserves a warning. -/
def Valid (c : Config) : Prop :=
  ∀ f ∈ c.check, f.level ≠ .error

instance (c : Config) : Decidable c.Valid := by
  unfold Valid
  infer_instance

variable {c : Config} {now due : Duration}

/-- Of the numbers of seconds only those are errors that are negative or not finite. -/
theorem valid_iff (c : Config) :
    c.Valid ↔ c.graceSeconds.isFinite = true ∧ c.graceSeconds.isBelowZero = false := by
  have hsignals : ∀ f ∈ (if c.handleSignals then [] else [Finding.signalsOff]),
      f.level ≠ .error := by
    split <;> simp [Finding.level]
  have hgrace : c.Valid ↔ ∀ f ∈ checkGrace c.graceSeconds, f.level ≠ .error := by
    unfold Valid check
    rw [List.forall_mem_append]
    exact and_iff_left hsignals
  rw [hgrace]
  unfold checkGrace
  split
  · rename_i hbad
    rw [Bool.or_eq_true, Bool.not_eq_true'] at hbad
    rcases hbad with hbad | hbad <;> simp [Finding.level, hbad]
  · rename_i hgood
    rw [Bool.or_eq_true, Bool.not_eq_true', not_or] at hgood
    have hother : ∀ f ∈ (if c.graceSeconds.isZero then [Finding.noGrace]
        else if c.graceSeconds.exceeds 300 then [.longGrace c.graceSeconds] else []),
        f.level ≠ .error := by
      split
      · simp [Finding.level]
      · split <;> simp [Finding.level]
    exact iff_of_true hother (by simpa using hgood)

/-- A number that is neither positive nor negative is no time. -/
theorem ofSeconds?_of_not_isPositive {x : Binary64} (hfinite : x.isFinite = true)
    (hsign : x.isBelowZero = false) (h : x.isPositive = false) :
    Duration.ofSeconds? x = some .zero := by
  cases x with
  | nan => cases hfinite
  | infinite negative => cases hfinite
  | finite negative m s hnormal =>
      have hm : m = 0 := by
        cases negative with
        | false => simpa [Binary64.isPositive] using h
        | true => simpa [Binary64.isBelowZero] using hsign
      subst hm
      have hnone : Binary64.scaled (.finite negative 0 s hnormal) = 0 := Nat.zero_mul _
      have hround : roundHalfEven 0 Binary64.unit = 0 := by decide +kernel
      unfold Duration.ofSeconds?
      rw [hfinite, hsign, hnone, Nat.zero_mul, hround]
      rfl

/-- What is valid has the grace period that its number of seconds gives. -/
theorem grace?_of_valid (h : c.Valid) : c.grace? = Duration.ofSeconds? c.graceSeconds := by
  obtain ⟨hfinite, hsign⟩ := c.valid_iff.mp h
  unfold grace?
  cases hpositive : c.graceSeconds.isPositive with
  | true => simp [hfinite]
  | false =>
      rw [ofSeconds?_of_not_isPositive hfinite hsign hpositive]
      simp

theorem grace?_eq_none_iff (h : c.Valid) : c.grace? = none ↔ 2 ^ 64 ≤ c.graceSeconds.toRat := by
  obtain ⟨hfinite, hsign⟩ := c.valid_iff.mp h
  rw [grace?_of_valid h]
  exact Duration.ofSeconds?_eq_none_iff hfinite hsign

/-- What is not valid has no time at all as its grace period. -/
theorem grace?_of_not_valid (h : ¬ c.Valid) : c.grace? = some .zero := by
  unfold grace?
  rw [if_neg]
  intro hpositive
  rw [Bool.and_eq_true] at hpositive
  refine h (c.valid_iff.mpr ⟨hpositive.1, ?_⟩)
  revert hpositive
  cases c.graceSeconds with
  | finite negative m s hnormal =>
      cases negative <;> simp [Binary64.isPositive, Binary64.isBelowZero]
  | nan => simp [Binary64.isPositive]
  | infinite negative => simp [Binary64.isFinite]

/-- The end of a grace period, if the seconds until then can be counted. -/
theorem deadline?_of_grace? {d : Duration} (h : c.grace? = some d) (now : Duration) :
    c.deadline? now =
      if now.nanos + d.nanos < 2 ^ 63 * nanosPerSecond then some ⟨now.nanos + d.nanos⟩
      else none := by
  unfold deadline?
  rw [h]
  dsimp only
  refine if_congr ?_ rfl rfl
  exact Nat.div_lt_iff_lt_mul (by decide)

end Config

namespace Launch

variable {l : Launch} {e : Event} {deadline : Duration}

theorem beginShutdown_of_deadline (h : l.config.deadline? l.now = some deadline)
    (reason : String) :
    ∃ m, l.beginShutdown reason = .ok m ∧ m.shutdown = some ⟨reason, deadline⟩ := by
  obtain ⟨m, hm⟩ : ∃ m, l.beginShutdown reason = .ok m := by
    unfold beginShutdown
    dsimp only
    rw [h]
    exact ⟨_, rfl⟩
  obtain ⟨deadline', hdeadline, rfl⟩ := beginShutdown_eq hm
  obtain rfl := Option.some.inj (h.symm.trans hdeadline)
  have heffects : Effects (fun _ => True) (l.withShutdown reason deadline) _ :=
    (cancelTimers_effects "cancelled by shutdown" l.cancelledByShutdown _).trans
      (signalLive_effects .terminate _)
  exact ⟨_, hm, heffects.sameLoop.shutdown⟩

theorem beginShutdown_of_no_deadline (h : l.config.deadline? l.now = none) (reason : String) :
    l.beginShutdown reason = .error (.noDeadline l.supervisor.shown) := by
  unfold beginShutdown
  dsimp only
  rw [h]

/-- As long as a shutdown could begin, the dispatch of any event comes to its end. -/
theorem exists_dispatch (h : l.config.deadline? l.now = some deadline) (e : Event) :
    ∃ m, l.dispatch e = .ok m := by
  unfold dispatch
  split
  · exact ⟨_, rfl⟩
  · have hturn := sameLoop_answerAll e 0 ((l.happen (.dispatched e)).openTurn e).1
      ((l.happen (.dispatched e)).openTurn e).2
    have hend : ((l.happen (.dispatched e)).turn e).config.deadline?
        ((l.happen (.dispatched e)).turn e).now = some deadline := by
      rw [← h]
      exact congr (congrArg Config.deadline? hturn.config) hturn.now
    cases e with
    | shutdownRequested reason due =>
        obtain ⟨m, hm, -⟩ := beginShutdown_of_deadline hend reason
        exact ⟨m, hm⟩
    | _ => exact ⟨_, rfl⟩

end Launch

/-- **What is valid and fits a duration does not break the shutdown.** Then there is a grace
period, which lies within half a nanosecond of the number of seconds configured; every shutdown
begins whose grace period ends before `2 ^ 63` seconds, with that end as its deadline, and in a
run the dispatch of whatever event comes next is completed. What is negative or not finite is an
error, and its grace period is no time at all. -/
theorem valid_grace_fits (c : Config) :
    (c.Valid → c.graceSeconds.toRat < 2 ^ 64 → ∃ d, c.grace? = some d ∧
      |(d.nanos : ℚ) / nanosPerSecond - c.graceSeconds.toRat| ≤ 1 / (2 * nanosPerSecond) ∧
      (∀ l : Launch, l.config = c → l.now.nanos + d.nanos < 2 ^ 63 * nanosPerSecond →
        ∀ reason, ∃ m, l.beginShutdown reason = .ok m ∧
          m.shutdown = some ⟨reason, ⟨l.now.nanos + d.nanos⟩⟩) ∧
      ∀ host args description l e rest, Reachable c host args description (.waiting l) →
        l.context.pending = e :: rest → l.now.nanos + d.nanos < 2 ^ 63 * nanosPerSecond →
        ∃ m, (l.withoutNext rest).dispatch e = .ok m) ∧
    (c.graceSeconds.isFinite = false ∨ c.graceSeconds.toRat < 0 →
      (∃ f ∈ c.check, f.level = .error) ∧ c.grace? = some .zero) := by
  refine ⟨fun hvalid hfits => ?_, fun hbad => ?_⟩
  · have hgrace : c.grace? ≠ none := by
      rw [Ne, Config.grace?_eq_none_iff hvalid, not_le]
      exact hfits
    obtain ⟨d, hd⟩ := Option.ne_none_iff_exists'.mp hgrace
    have hdeadline : ∀ l : Launch, l.config = c →
        l.now.nanos + d.nanos < 2 ^ 63 * nanosPerSecond →
        l.config.deadline? l.now = some ⟨l.now.nanos + d.nanos⟩ := by
      rintro l rfl hsoon
      rw [Config.deadline?_of_grace? hd, if_pos hsoon]
    refine ⟨d, hd, ?_, fun l hl hsoon => Launch.beginShutdown_of_deadline (hdeadline l hl hsoon),
      fun host args description l e rest hl _ hsoon => ?_⟩
    · exact Duration.ofSeconds?_near ((Config.grace?_of_valid hvalid).symm.trans hd)
    · have hpolicy := (Launch.failuresInOrder_of_moves hl.moves_any.1).policy
      exact Launch.exists_dispatch (hdeadline (l.withoutNext rest) hpolicy hsoon) e
  · have hnot : ¬ c.Valid := by
      rw [c.valid_iff]
      rintro ⟨hfinite, hsign⟩
      rcases hbad with hbad | hbad
      · rw [hfinite] at hbad
        cases hbad
      · rw [(Binary64.isBelowZero_iff hfinite).mpr hbad] at hsign
        cases hsign
    refine ⟨?_, Config.grace?_of_not_valid hnot⟩
    by_contra hnone
    exact hnot fun f hf herror => hnone ⟨f, hf, herror⟩

/-- The standard configuration with another number of seconds. -/
def Config.withGrace (x : Binary64) : Config :=
  { standard with graceSeconds := x }

/-- A launch of the standard configuration that asks for its shutdown takes it up, and less than
no time is an error. -/
theorem standard_grace_fits :
    (∃ d, Config.standard.grace? = some d ∧
      |(d.nanos : ℚ) / nanosPerSecond - Config.standard.graceSeconds.toRat| ≤
        1 / (2 * nanosPerSecond)) ∧
      (∃ e m, (Launch.begin .standard .willing [] [.halt 2 "done"]).context.pending = [e] ∧
        ((Launch.begin .standard .willing [] [.halt 2 "done"]).withoutNext []).dispatch e =
          .ok m) ∧
      ∃ f ∈ (Config.withGrace (.infinite true)).check, f.level = .error := by
  have hvalid : Config.standard.Valid := by decide +kernel
  have hgrace : Config.standard.grace? = some ⟨5000000000⟩ := by decide +kernel
  have hfits : Config.standard.graceSeconds.toRat < 2 ^ 64 := by
    rw [← not_le, ← Config.grace?_eq_none_iff hvalid, hgrace]
    exact nofun
  obtain ⟨d, hd, hnear, -, hruns⟩ := (valid_grace_fits .standard).1 hvalid hfits
  obtain rfl : (⟨5000000000⟩ : Duration) = d := Option.some.inj (hgrace.symm.trans hd)
  have hpending : (Launch.begin .standard .willing [] [.halt 2 "done"]).context.pending =
      [.shutdownRequested "done" false] := by rfl
  obtain ⟨m, hm⟩ := hruns .willing [] [.halt 2 "done"] _ _ _ .begin hpending (by decide +kernel)
  exact ⟨⟨_, hgrace, hnear⟩, ⟨_, m, hpending, hm⟩,
    ((valid_grace_fits (.withGrace (.infinite true))).2 (.inl rfl)).1⟩

/-- It is not so for everything that is valid: some valid numbers of seconds are no duration, and
some durations end beyond every point in time. -/
theorem not_every_valid_grace_fits :
    (¬ ∀ c : Config, c.Valid → ∃ d, c.grace? = some d) ∧
      ¬ ∀ (c : Config) (l : Launch) (reason : String), c.Valid → c.grace?.isSome = true →
        l.config = c → ∃ m, l.beginShutdown reason = .ok m := by
  constructor
  · intro hevery
    obtain ⟨d, hd⟩ := hevery (.withGrace (.ofNat (10 ^ 20))) (by decide +kernel)
    have hnone : (Config.withGrace (.ofNat (10 ^ 20))).grace? = none := by decide +kernel
    rw [hnone] at hd
    cases hd
  · have hnone : (Launch.start (.withGrace (.ofNat (10 ^ 19))) .bare []).config.deadline?
        (Launch.start (.withGrace (.ofNat (10 ^ 19))) .bare []).now = none := by decide +kernel
    have hconfig : ∀ c : Config, (Launch.start c .bare []).config = c := fun _ => rfl
    intro hevery
    obtain ⟨m, hm⟩ := hevery (.withGrace (.ofNat (10 ^ 19))) _ "done" (by decide +kernel)
      (by decide +kernel) (hconfig _)
    rw [Launch.beginShutdown_of_no_deadline hnone] at hm
    cases hm

end Conductor
