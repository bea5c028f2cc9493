import TypeOrigins.Proofs.Analysis.Outcomes

/-! # Schedules of a pool

A pool as a transition system. Its tasks wait, run on one of the workers and are done, in any order;
a loop takes their results in the order of the tasks and ends at the first error, after which tasks
that still wait may be cancelled. Every schedule comes to an end, and all of them end with the same
outcome, which is that of the tasks one after another. -/

namespace TypeOrigins
set_option autoImplicit false

/-- How far a task is. -/
inductive Progress (ε α : Type) where
  | pending
  | running
  | done (result : Except ε α)
  | cancelled

namespace Progress
variable {ε α : Type}

def isRunning : Progress ε α → Bool
  | running => true
  | _ => false

/-- The most steps that a task still takes. -/
def stepsLeft : Progress ε α → ℕ
  | pending => 2
  | running => 1
  | done _ => 0
  | cancelled => 0

end Progress

/-- The tasks of a pool, the values taken so far, and the error that was met. -/
structure Pool (ε α : Type) where
  slots : List (Progress ε α)
  taken : List α := []
  failure : Option ε := none

namespace Pool
variable {ε α : Type}

/-- The pool before any task has started. -/
def submitted (tasks : List (Except ε α)) : Pool ε α where
  slots := tasks.map fun _ => .pending

def put (s : Pool ε α) (i : ℕ) (x : Progress ε α) : Pool ε α := { s with slots := s.slots.set i x }

/-- One step, where `tasks` is what each task comes to. -/
inductive Step (tasks : List (Except ε α)) (workers : ℕ) (s : Pool ε α) : Pool ε α → Prop
  | start (i : ℕ) (hi : s.slots[i]? = some .pending)
      (hw : s.slots.countP Progress.isRunning < workers) : Step tasks workers s (s.put i .running)
  | finish (i : ℕ) (r : Except ε α) (hi : s.slots[i]? = some .running) (hr : tasks[i]? = some r) :
      Step tasks workers s (s.put i (.done r))
  | take (a : α) (hf : s.failure = none) (ha : s.slots[s.taken.length]? = some (.done (.ok a))) :
      Step tasks workers s { s with taken := s.taken ++ [a] }
  | fail (e : ε) (hf : s.failure = none) (he : s.slots[s.taken.length]? = some (.done (.error e))) :
      Step tasks workers s { s with failure := some e }
  | cancel (i : ℕ) (hf : s.failure ≠ none) (hi : s.slots[i]? = some .pending) :
      Step tasks workers s (s.put i .cancelled)

/-- The states that schedules lead to, with the number of steps. -/
inductive Reaches (tasks : List (Except ε α)) (workers : ℕ) : ℕ → Pool ε α → Prop
  | submitted : Reaches tasks workers 0 (submitted tasks)
  | step {n : ℕ} {s s' : Pool ε α} (h : Reaches tasks workers n s) (e : Step tasks workers s s') :
      Reaches tasks workers (n + 1) s'

/-- All tasks are over, and so is the loop that takes their results. -/
def Over (s : Pool ε α) : Prop :=
  (∀ x ∈ s.slots, x.stepsLeft = 0) ∧ (s.failure ≠ none ∨ s.taken.length = s.slots.length)

def outcome (s : Pool ε α) : Except ε (List α) :=
  match s.failure with
  | some e => .error e
  | none => .ok s.taken

variable {tasks : List (Except ε α)} {workers : ℕ} {s s' : Pool ε α}

/-! ## The invariant -/

/-- What every step keeps: results are those of the tasks, values were taken in their order, and the
error is that of the task after them. -/
structure Sound (tasks : List (Except ε α)) (s : Pool ε α) : Prop where
  length_eq : s.slots.length = tasks.length
  done : ∀ (i : ℕ) (r : Except ε α), s.slots[i]? = some (.done r) → tasks[i]? = some r
  cancelled : ∀ i : ℕ, s.slots[i]? = some .cancelled → s.failure ≠ none
  taken : tasks.take s.taken.length = s.taken.map .ok
  failure : ∀ e, s.failure = some e → tasks[s.taken.length]? = some (.error e)

theorem Sound.submitted (tasks : List (Except ε α)) : Sound tasks (submitted tasks) := by
  have hpending : ∀ (i : ℕ) (x : Progress ε α), (Pool.submitted tasks).slots[i]? = some x →
      x = .pending := by
    intro i x hx
    have hmem := List.mem_of_getElem? hx
    obtain ⟨_, _, rfl⟩ := List.mem_map.mp hmem
    rfl
  constructor
  · exact List.length_map _
  · intro i r hr
    cases hpending i _ hr
  · intro i hi
    cases hpending i _ hi
  · rfl
  · intro e he
    cases he

theorem Sound.put (h : Sound tasks s) {i : ℕ} {x : Progress ε α}
    (hd : ∀ r, x = .done r → tasks[i]? = some r) (hc : x = .cancelled → s.failure ≠ none) :
    Sound tasks (s.put i x) := by
  have hslot : ∀ (j : ℕ) (y : Progress ε α), (s.put i x).slots[j]? = some y →
      (j = i ∧ y = x) ∨ s.slots[j]? = some y := by
    intro j y hy
    rw [Pool.put, List.getElem?_set] at hy
    split at hy
    · next hij =>
      split at hy
      · exact Or.inl ⟨hij.symm, (Option.some.inj hy).symm⟩
      · cases hy
    · exact Or.inr hy
  constructor
  · rw [Pool.put, List.length_set]
    exact h.length_eq
  · intro j r hr
    rcases hslot j _ hr with ⟨rfl, hx⟩ | hr
    · exact hd r hx.symm
    · exact h.done j r hr
  · intro j hj
    rcases hslot j _ hj with ⟨_, hx⟩ | hj
    · exact hc hx.symm
    · exact h.cancelled j hj
  · exact h.taken
  · exact h.failure

theorem Sound.step (h : Sound tasks s) (e : Step tasks workers s s') : Sound tasks s' := by
  cases e with
  | start i hi hw => exact h.put (by simp) (by simp)
  | finish i r hi hr =>
    refine h.put ?_ (by simp)
    rintro r' hr'
    cases hr'
    exact hr
  | take a hf ha =>
    refine ⟨h.length_eq, h.done, h.cancelled, ?_, ?_⟩
    · have hnext := h.done _ _ ha
      rw [List.length_append, List.length_singleton, List.take_add_one, h.taken, hnext, List.map_append]
      rfl
    · intro e he
      rw [hf] at he
      cases he
  | fail e hf he =>
    refine ⟨h.length_eq, h.done, fun _ _ => by simp, h.taken, ?_⟩
    intro e' he'
    cases he'
    exact h.done _ _ he
  | cancel i hf hi => exact h.put (by simp) (fun _ => hf)

theorem Sound.taken_le (h : Sound tasks s) : s.taken.length ≤ s.slots.length := by
  have hlen := congrArg List.length h.taken
  rw [List.length_take, List.length_map] at hlen
  have := h.length_eq
  omega

/-! ## Outcomes -/

theorem valuesOf_eq_error {rs : List (Except ε α)} {as : List α} {e : ε}
    (htake : rs.take as.length = as.map .ok) (he : rs[as.length]? = some (.error e)) :
    valuesOf rs = .error e := by
  induction as generalizing rs with
  | nil =>
    cases rs with
    | nil => cases he
    | cons r rest =>
      cases he
      rfl
  | cons a more ih =>
    cases rs with
    | nil => cases he
    | cons r rest =>
      rw [List.length_cons, List.take_succ_cons, List.map_cons] at htake
      obtain ⟨rfl, hmore⟩ := List.cons.inj htake
      rw [valuesOf, ih hmore he]
      rfl

theorem Sound.outcome_eq (h : Sound tasks s) (ho : s.Over) : s.outcome = valuesOf tasks := by
  unfold outcome
  split
  · next e he => exact (valuesOf_eq_error h.taken (h.failure e he)).symm
  · next hnone =>
    have hall : s.taken.length = tasks.length := by
      rw [← h.length_eq]
      exact ho.2.resolve_left fun hf => hf hnone
    have htake := h.taken
    rw [hall, List.take_length] at htake
    exact (valuesOf_eq_ok.mpr htake).symm

/-! ## Every schedule ends -/

def slotsLeft : List (Progress ε α) → ℕ
  | [] => 0
  | x :: rest => x.stepsLeft + slotsLeft rest

/-- The most steps that the pool still takes. -/
def stepsLeft (s : Pool ε α) : ℕ :=
  slotsLeft s.slots + (s.slots.length - s.taken.length) + if s.failure.isNone then 1 else 0

theorem slotsLeft_set {l : List (Progress ε α)} {i : ℕ} {x : Progress ε α} (hx : l[i]? = some x)
    (y : Progress ε α) : slotsLeft (l.set i y) + x.stepsLeft = slotsLeft l + y.stepsLeft := by
  induction l generalizing i with
  | nil => cases hx
  | cons z rest ih =>
    cases i with
    | zero =>
      cases hx
      simp only [List.set_cons_zero, slotsLeft]
      omega
    | succ i =>
      have := ih (i := i) hx
      simp only [List.set_cons_succ, slotsLeft]
      omega

theorem slotsLeft_submitted (tasks : List (Except ε α)) :
    slotsLeft (submitted tasks).slots = 2 * tasks.length := by
  unfold submitted
  dsimp only
  induction tasks with
  | nil => rfl
  | cons t rest ih =>
    rw [List.map_cons, slotsLeft, ih, List.length_cons, Progress.stepsLeft]
    omega

theorem put_stepsLeft {i : ℕ} {x y : Progress ε α} (hx : s.slots[i]? = some x)
    (hlt : y.stepsLeft < x.stepsLeft) : (s.put i y).stepsLeft < s.stepsLeft := by
  have hset := slotsLeft_set hx y
  unfold stepsLeft put
  dsimp only
  rw [List.length_set]
  omega

theorem Step.stepsLeft_lt (e : Step tasks workers s s') : s'.stepsLeft < s.stepsLeft := by
  cases e with
  | start i hi hw => exact put_stepsLeft hi (by simp [Progress.stepsLeft])
  | finish i r hi hr => exact put_stepsLeft hi (by simp [Progress.stepsLeft])
  | take a hf ha =>
    obtain ⟨hlt, _⟩ := List.getElem?_eq_some_iff.mp ha
    unfold stepsLeft
    dsimp only
    rw [List.length_append, List.length_singleton]
    omega
  | fail e hf he => simp [stepsLeft, hf]
  | cancel i hf hi => exact put_stepsLeft hi (by simp [Progress.stepsLeft])

theorem Reaches.sound {n : ℕ} (h : Reaches tasks workers n s) :
    Sound tasks s ∧ n + s.stepsLeft ≤ 3 * tasks.length + 1 := by
  induction h with
  | submitted =>
    refine ⟨.submitted tasks, ?_⟩
    have hslots := slotsLeft_submitted tasks
    have hlen := (Sound.submitted tasks).length_eq
    unfold stepsLeft
    rw [hslots, hlen]
    simp only [Pool.submitted, List.length_nil, Option.isNone_none, if_true]
    omega
  | step _ e ih =>
    have := e.stepsLeft_lt
    exact ⟨ih.1.step e, by omega⟩

/-- A pool that is not over goes on. -/
theorem Sound.exists_step (h : Sound tasks s) (hw : 0 < workers) (ho : ¬ s.Over) :
    ∃ s', Step tasks workers s s' := by
  by_cases hrun : ∃ i : ℕ, s.slots[i]? = some .running
  · obtain ⟨i, hi⟩ := hrun
    obtain ⟨hlt, _⟩ := List.getElem?_eq_some_iff.mp hi
    rw [h.length_eq] at hlt
    exact ⟨_, .finish i _ hi (List.getElem?_eq_getElem hlt)⟩
  by_cases hwait : ∃ i : ℕ, s.slots[i]? = some .pending
  · obtain ⟨i, hi⟩ := hwait
    refine ⟨_, .start i hi ?_⟩
    have hnone : s.slots.countP Progress.isRunning = 0 := by
      rw [List.countP_eq_zero]
      intro x hx hr
      obtain ⟨j, hj⟩ := List.mem_iff_getElem?.mp hx
      cases x with
      | running => exact hrun ⟨j, hj⟩
      | pending => cases hr
      | done r => cases hr
      | cancelled => cases hr
    omega
  -- no task runs or waits, so it is the loop that goes on
  have hrest : ∀ x ∈ s.slots, x.stepsLeft = 0 := by
    intro x hx
    obtain ⟨j, hj⟩ := List.mem_iff_getElem?.mp hx
    cases x with
    | pending => exact absurd ⟨j, hj⟩ hwait
    | running => exact absurd ⟨j, hj⟩ hrun
    | done r => rfl
    | cancelled => rfl
  have hopen : ¬ (s.failure ≠ none ∨ s.taken.length = s.slots.length) := fun hend => ho ⟨hrest, hend⟩
  rw [not_or, not_not] at hopen
  have hlt : s.taken.length < s.slots.length := by
    have := h.taken_le
    omega
  have hslot := List.getElem?_eq_getElem hlt
  cases hx : s.slots[s.taken.length] with
  | pending => exact absurd ⟨_, hx ▸ hslot⟩ hwait
  | running => exact absurd ⟨_, hx ▸ hslot⟩ hrun
  | cancelled => exact absurd hopen.1 (h.cancelled _ (hx ▸ hslot))
  | done r =>
    cases r with
    | ok a => exact ⟨_, .take a hopen.1 (hx ▸ hslot)⟩
    | error e => exact ⟨_, .fail e hopen.1 (hx ▸ hslot)⟩

theorem exists_over (tasks : List (Except ε α)) (hw : 0 < workers) :
    ∃ n s, Reaches tasks workers n s ∧ s.Over := by
  have hend : ∀ k n s, Reaches tasks workers n s → s.stepsLeft = k →
      ∃ n s, Reaches tasks workers n s ∧ s.Over := by
    intro k
    induction k using Nat.strong_induction_on with
    | _ k ih =>
      intro n s hs hk
      by_cases ho : s.Over
      · exact ⟨n, s, hs, ho⟩
      · obtain ⟨s', e⟩ := hs.sound.1.exists_step hw ho
        exact ih s'.stepsLeft (hk ▸ e.stepsLeft_lt) _ s' (hs.step e) rfl
  exact hend _ 0 _ .submitted rfl

end Pool

/-! ## Analyses in a pool -/

/-- What each entry comes to. -/
def entryTasks (p : Program) (config : Config) (entries : List Entry) : List (Except Failure Outcome) :=
  entries.map fun e => (resolveEntry p config e).result

/-- The results that the schedules of the pool allow: one with several workers and entries, else the
entries one after another. -/
def Scheduled (p : Program) (config : Config) (result : Except AnalysisError Analysis) : Prop :=
  ∃ entries outcomes, (discover p config.apis : Logged AnalysisError (List Entry)).result = .ok entries ∧
    (if 1 < config.workers ∧ 1 < entries.length then
      ∃ n s, Pool.Reaches (entryTasks p config entries) config.workers.toNat n s ∧ s.Over ∧
        outcomes = s.outcome
    else outcomes = (inTurn (entries.map (resolveEntry p config))).result) ∧
    result = (outcomes.mapError AnalysisError.failed).bind fun os => (conclude entries os).result

theorem result_analyze_workers (p : Program) (config : Config) (workers : Int) :
    (analyze p { config with workers := workers }).result = (analyze p config).result := by
  rw [result_analyze, result_analyze]
  rfl

theorem result_eq_of_scheduled {p : Program} {config : Config} {result : Except AnalysisError Analysis}
    (h : Scheduled p config result) : result = (analyze p config).result := by
  obtain ⟨entries, outcomes, hentries, houtcomes, rfl⟩ := h
  obtain rfl : p.entries config.apis = entries :=
    Except.ok.inj ((result_discover p config.apis).symm.trans hentries)
  have hvalues : outcomes = valuesOf (entryTasks p config (p.entries config.apis)) := by
    split at houtcomes
    · obtain ⟨n, s, hs, ho, rfl⟩ := houtcomes
      exact hs.sound.1.outcome_eq ho
    · rw [houtcomes, result_inTurn, List.map_map]
      rfl
  rw [result_analyze, hvalues]
  rfl

/-- However a pool of workers schedules the entries, the analysis comes to the result that one worker
comes to. Every schedule ends after a number of steps that the entries bound, and none is stuck. -/
theorem analyze_schedule_independent (p : Program) (config : Config) :
    (∃ result, Scheduled p config result) ∧
      (∀ result, Scheduled p config result → result = (analyze p { config with workers := 1 }).result) ∧
      (analyze p config).result = (analyze p { config with workers := 1 }).result ∧
      ∀ entries n s, (discover p config.apis : Logged AnalysisError (List Entry)).result = .ok entries →
        Pool.Reaches (entryTasks p config entries) config.workers.toNat n s →
        n ≤ 3 * entries.length + 1 ∧
          (1 < config.workers → s.Over ∨
            ∃ s', Pool.Step (entryTasks p config entries) config.workers.toNat s s') := by
  refine ⟨?_, ?_, ?_, ?_⟩
  · by_cases hpool : 1 < config.workers ∧ 1 < (p.entries config.apis).length
    · obtain ⟨n, s, hs, ho⟩ := Pool.exists_over (entryTasks p config (p.entries config.apis))
        (show 0 < config.workers.toNat by omega)
      exact ⟨_, _, s.outcome, result_discover p config.apis, by rw [if_pos hpool]; exact ⟨n, s, hs, ho, rfl⟩,
        rfl⟩
    · exact ⟨_, _, _, result_discover p config.apis, by rw [if_neg hpool], rfl⟩
  · intro result h
    rw [result_analyze_workers]
    exact result_eq_of_scheduled h
  · exact (result_analyze_workers p config 1).symm
  · intro entries n s hentries hs
    obtain ⟨hsound, hsteps⟩ := hs.sound
    rw [entryTasks, List.length_map] at hsteps
    refine ⟨by omega, fun hw => ?_⟩
    by_cases ho : s.Over
    · exact Or.inl ho
    · exact Or.inr (hsound.exists_step (by omega) ho)

/-! ## A failure that comes late

Three calls that fail, each with a failure of its own. -/

namespace Backlog

def call (id text : String) : CallSite where
  id := id
  location := ⟨"Backlog.cs", 1, 0⟩
  target := ⟨"CreateInstance", "System.Activator", "CreateInstance"⟩
  arguments := [.untraced { text := text } .invocation]

def program : Program where
  callSites := [call "first" "Load(0)", call "second" "Load(1)", call "third" "Load(2)"]

def config : Config := { workers := 2 }

def failure (id text : String) : Failure where
  site := call id text
  construct := text
  cause := .untracedShape "invocation"
  origin := some (call id text)

def tasks : List (Except Failure Outcome) :=
  [.error (failure "first" "Load(0)"), .error (failure "second" "Load(1)"),
    .error (failure "third" "Load(2)")]

end Backlog

open Backlog in
theorem analyze_late_failure :
    Scheduled program config (.error (.failed (failure "first" "Load(0)"))) ∧
      (analyze program { config with workers := 1 }).result =
        .error (.failed (failure "first" "Load(0)")) := by
  have htasks : entryTasks program config (program.callSites.map fun c => ⟨c, Api.activator⟩) = tasks := by
    rfl
  -- the second call has failed before the first starts, and the third is cancelled
  have hrun : Pool.Reaches tasks 2 0 (Pool.submitted tasks) := .submitted
  have hrun := hrun.step (.start 1 rfl (by decide))
  have hrun := hrun.step (.finish 1 _ rfl rfl)
  have hrun := hrun.step (.start 0 rfl (by decide))
  have hrun := hrun.step (.finish 0 _ rfl rfl)
  have hrun := hrun.step (.fail _ rfl rfl)
  have hrun := hrun.step (.cancel 2 (by simp) rfl)
  have hscheduled : Scheduled program config (.error (.failed (failure "first" "Load(0)"))) := by
    refine ⟨program.callSites.map fun c => ⟨c, Api.activator⟩,
      .error (failure "first" "Load(0)"), rfl, ?_, rfl⟩
    rw [if_pos (by decide), htasks]
    refine ⟨_, _, hrun, ⟨?_, Or.inl ?_⟩, rfl⟩
    · simp [Pool.put, Pool.submitted, tasks, Progress.stepsLeft]
    · simp [Pool.put]
  exact ⟨hscheduled, ((analyze_schedule_independent program config).2.1 _ hscheduled).symm⟩

end TypeOrigins
