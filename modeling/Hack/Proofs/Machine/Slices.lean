import Hack.Proofs.Machine.Invariant

/-!
Runs that are cut into slices.

A run asks for the next instruction only while its limit allows one, so a run that ends at its limit
leaves the machine where a further run takes it up (`run_add`). A run that ends below its limit has
found a machine that has stopped, and such a machine stays as it is; this is why a limit that was
not reached can be replaced by any other one that is not below the count (`run_eq_of_count_lt`).
-/

namespace Hack.Machine

/-- A run goes on where another one has ended, and the counts add up. -/
theorem run_add (first second : Nat) (m : Machine) :
    run (first + second) m =
      ((run first m).1 + (run second (run first m).2).1, (run second (run first m).2).2) := by
  induction first generalizing m with
  | zero => rw [Nat.zero_add, show run 0 m = (0, m) from rfl, Nat.zero_add]
  | succ first ih =>
    rw [Nat.add_right_comm]
    cases step : m.step? with
    | none =>
      -- both slices find the machine stopped, as the whole run does
      have stopped := (step?_eq_none_iff m).1 step
      rw [run_of_stopped _ stopped, run_of_stopped _ stopped, run_of_stopped _ stopped]
      rfl
    | some next =>
      rw [run_succ_of_step _ step, run_succ_of_step _ step, ih next, Nat.add_right_comm]

theorem run_count_le (limit : Nat) (m : Machine) : (run limit m).1 ≤ limit := by
  induction limit generalizing m with
  | zero => exact Nat.le_refl 0
  | succ limit ih =>
    cases step : m.step? with
    | none =>
      rw [run_of_stopped _ ((step?_eq_none_iff m).1 step)]
      exact Nat.zero_le _
    | some next =>
      rw [run_succ_of_step limit step]
      exact Nat.succ_le_succ (ih next)

/-- A run that ends below its limit has found that the machine has stopped. -/
theorem stopped_of_count_lt {limit : Nat} {m : Machine} (early : (run limit m).1 < limit) :
    (run limit m).2.stopped = true :=
  (run_count_eq_or_stopped limit m).resolve_left (Nat.ne_of_lt early)

/-- A limit that was not reached does not count, and neither does any other one that allows as many
instructions as were executed. -/
theorem run_eq_of_count_lt {limit other : Nat} {m : Machine} (early : (run limit m).1 < limit)
    (enough : (run limit m).1 ≤ other) : run other m = run limit m :=
  run_eq_of_steps (steps_run limit m) (stopped_of_count_lt early) enough

/-- Any number of runs, one after the other, go as far as one run under the sum of their limits. -/
theorem perform_runs (limits : List Nat) (m : Machine) :
    m.perform (limits.map .run) = (run (limits.foldr (· + ·) 0) m).2 := by
  induction limits generalizing m with
  | nil => rfl
  | cons limit limits ih =>
    rw [List.map_cons, perform_cons, ih, List.foldr_cons, run_add]
    rfl

/-- **Running in slices is running at once.** Two runs of any machine end where one run under the
sum of their limits ends, with the counts added up. A run is as many steps as it counts: as many as
its limit, or fewer if the machine has stopped by then. And a run that ends below its limit is the
run under every limit that is not below its count. -/
theorem run_in_slices (m : Machine) :
    (∀ first second, run (first + second) m =
      ((run first m).1 + (run second (run first m).2).1, (run second (run first m).2).2)) ∧
    (∀ limit, Steps (run limit m).1 m (run limit m).2 ∧
      ((run limit m).1 = limit ∨
        (run limit m).1 < limit ∧ (run limit m).2.stopped = true)) ∧
    (∀ limit other, (run limit m).1 < limit → (run limit m).1 ≤ other →
      run other m = run limit m) := by
  refine ⟨fun first second => run_add first second m, ?_, ?_⟩
  · intro limit
    refine ⟨steps_run limit m, ?_⟩
    rcases Nat.eq_or_lt_of_le (run_count_le limit m) with reached | early
    · exact Or.inl reached
    · exact Or.inr ⟨early, stopped_of_count_lt early⟩
  · intro limit other early enough
    exact run_eq_of_count_lt early enough

/-- The ending program has stopped after four instructions, whether they are executed one by one,
in slices or at once, and under every limit that allows four. -/
theorem run_in_slices_endingRom :
    (run 3 (start endingRom)).1 = 3 ∧ (run 5 (run 3 (start endingRom)).2).1 = 1 ∧
      run (3 + 5) (start endingRom) = (4, (run 5 (run 3 (start endingRom)).2).2) ∧
      ∀ limit, 4 ≤ limit → run limit (start endingRom) = run 8 (start endingRom) := by
  obtain ⟨slices, _, early⟩ := run_in_slices (start endingRom)
  exact ⟨rfl, rfl, slices 3 5, fun limit enough => early 8 limit (by decide) enough⟩

end Hack.Machine
