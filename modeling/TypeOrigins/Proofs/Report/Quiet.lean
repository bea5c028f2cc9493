import TypeOrigins.Facts.Loading
import TypeOrigins.Settings.Basic

/-! # Events that are no errors

Loading, settings and the analysis say events below the level of an error, whether they end with a
value or not: an error is said by the program alone, when it reports what stopped it. -/

namespace TypeOrigins
set_option autoImplicit false

/-- No event that is said is an error. -/
def Logged.Quiet {ε α : Type} (x : Logged ε α) : Prop := ∀ e ∈ x.events, e.level ≠ .error

namespace Logged.Quiet
variable {ε δ α β : Type}

theorem of_events {x : Logged ε α} (h : x.events = []) : x.Quiet := by
  intro e he
  rw [h] at he
  cases he

theorem ok (a : α) : (Logged.ok a : Logged ε α).Quiet := of_events rfl

theorem fail (e : ε) : (Logged.fail e : Logged ε α).Quiet := of_events rfl

theorem lift (r : Except ε α) : (Logged.lift r).Quiet := of_events rfl

theorem say {e : Event} (h : e.level ≠ .error) : (Logged.say e : Logged ε Unit).Quiet := by
  intro e' he'
  rw [List.mem_singleton.mp he']
  exact h

theorem bind {x : Logged ε α} {f : α → Logged ε β} (hx : x.Quiet) (hf : ∀ a, (f a).Quiet) :
    (x >>= f).Quiet := by
  show (Logged.bind x f).Quiet
  unfold Logged.bind
  split
  · next a _ =>
    intro e he
    rcases List.mem_append.mp he with he | he
    · exact hx e he
    · exact hf a e he
  · exact hx

theorem mapError {x : Logged ε α} (hx : x.Quiet) (f : ε → δ) : (x.mapError f).Quiet := hx

theorem say_first (b : Bool) {e : Event} (h : e.level ≠ .error) {x : Logged ε α} (hx : x.Quiet) :
    (if b = true then (do Logged.say e; x) else x).Quiet := by
  split
  · exact (say h).bind fun _ => hx
  · exact hx

end Logged.Quiet

open Logged (Quiet)

/-! ## One search -/

section Searches
variable {g : Guard} {p : Program}

theorem quiet_failureAt {α : Type} (c : Context) (site : CallSite) (construct : String)
    (cause : Cause) : (failureAt c site construct cause : Logged Failure α).Quiet :=
  Quiet.fail _

theorem quiet_spread (c : Context) (construct : String) (b : Binding)
    (hcycle : ∀ d, (b.cycle d).level ≠ .error) (callers : List CallSite) :
    (spread g c construct b callers).Quiet := by
  induction callers with
  | nil => exact Quiet.ok _
  | cons d rest ih =>
    unfold spread
    split
    · exact quiet_failureAt c d construct _
    · split
      · exact (Quiet.say (hcycle d)).bind fun _ => ih
      · split
        · exact quiet_failureAt c d construct _
        · exact ih.bind fun _ => Quiet.ok _

theorem quiet_traceTypeParameter (site : CallSite) (t : TypeParameter) (c : Context) :
    (traceTypeParameter g p site t c).Quiet := by
  unfold traceTypeParameter
  split
  · exact quiet_failureAt c site _ _
  · split
    · exact quiet_failureAt c site _ _
    · refine Quiet.say_first _ (by simp [Event.level]) (Quiet.bind ?_ fun _ => Quiet.ok _)
      exact quiet_spread c _ t.binding (by simp [TypeParameter.binding, Event.level]) _

theorem quiet_traceSymbol (site : CallSite) (symbol : TypeSymbol) (construct : String) (c : Context) :
    (traceSymbol g p site symbol construct c).Quiet := by
  unfold traceSymbol
  split
  · exact quiet_traceTypeParameter site _ c
  · split
    · exact quiet_failureAt c site _ _
    · split
      · exact quiet_failureAt c site _ _
      · exact Quiet.ok _

theorem quiet_traceLocal (site : CallSite) (reference : Expression) (id : String) (c : Context) :
    (traceLocal g p site reference id c).Quiet := by
  unfold traceLocal
  split
  · exact quiet_failureAt c site _ _
  · split
    · exact quiet_failureAt c site _ _
    · split
      · exact quiet_failureAt c site _ _
      · dsimp only
        split
        · exact (Quiet.say (by simp [Event.level])).bind fun _ => Quiet.ok _
        · exact Quiet.ok _

theorem quiet_traceParameter (site : CallSite) (reference : Expression) (methodId : String) (k : Int)
    (c : Context) : (traceParameter g p site reference methodId k c).Quiet := by
  unfold traceParameter
  split
  · exact quiet_failureAt c site _ _
  · split
    · exact quiet_failureAt c site _ _
    · dsimp only
      split
      · exact quiet_failureAt c _ _ _
      · refine Quiet.say_first _ (by simp [Event.level]) (Quiet.bind ?_ fun _ => Quiet.ok _)
        exact quiet_spread c _ (parameterBinding k _) (by simp [parameterBinding, Event.level]) _

theorem quiet_expandUnder (w : Work) : (w.expandUnder g p).Quiet := by
  unfold Work.expandUnder
  split
  · exact quiet_traceSymbol w.site _ _ w.context
  · unfold traceValue
    split
    · exact quiet_traceSymbol w.site _ _ w.context
    · split
      · exact quiet_failureAt _ _ _ _
      · exact quiet_traceSymbol w.site _ _ w.context
    · exact quiet_traceLocal w.site _ _ w.context
    · exact quiet_traceParameter w.site _ _ _ w.context
    · exact quiet_failureAt _ _ _ _
  · exact quiet_failureAt _ _ _ _

theorem quiet_runUnder (limit : Int) (fuel : Nat) (s : Search) :
    (Search.runUnder g p limit fuel s).Quiet := by
  induction fuel generalizing s with
  | zero => exact Quiet.ok _
  | succ fuel ih =>
    unfold Search.runUnder
    split
    · exact Quiet.ok _
    · refine Quiet.bind ?_ fun s' => ih s'
      unfold Search.advanceUnder
      split
      · exact Quiet.ok _
      · split
        · exact quiet_failureAt _ _ _ _
        · exact (quiet_expandUnder _).bind fun _ => Quiet.ok _

theorem quiet_resolve (limit : Int) (site : CallSite) (api : Option Api) :
    (resolve p limit site api).Quiet := by
  refine (Quiet.lift (seed site api)).bind fun w => (quiet_runUnder limit _ _).bind fun s => ?_
  exact (Quiet.say (by simp [Event.level])).bind fun _ => Quiet.ok _

end Searches

/-! ## Analyses -/

theorem quiet_scanEntries {ε : Type} (p : Program) (entries : List Entry) (apis : List Api) :
    (scanEntries p entries apis : Logged ε (List Entry)).Quiet := by
  induction apis generalizing entries with
  | nil => exact Quiet.ok _
  | cons api rest ih => exact (Quiet.say (by simp [Event.level])).bind fun _ => ih _

theorem quiet_discover {ε : Type} (p : Program) (apis : List Api) :
    (discover p apis : Logged ε (List Entry)).Quiet := by
  unfold discover
  refine (quiet_scanEntries p [] apis).bind fun entries => ?_
  exact (Quiet.say (by simp [Event.level])).bind fun _ => Quiet.ok _

theorem quiet_resolveEntry (p : Program) (config : Config) (entry : Entry) :
    (resolveEntry p config entry).Quiet := by
  have hresolve := quiet_resolve (p := p) config.maxDepth entry.site (some entry.api)
  unfold resolveEntry
  dsimp only
  split
  · exact hresolve
  · split
    · intro e he
      rcases List.mem_append.mp he with he | he
      · exact hresolve e he
      · rw [List.mem_singleton.mp he]
        simp [Event.level]
    · exact hresolve

theorem quiet_resolveEntries (p : Program) (config : Config) (entries : List Entry) :
    (resolveEntries p config entries).Quiet := by
  have htasks : ∀ t ∈ entries.map (resolveEntry p config), t.Quiet := by
    intro t ht
    obtain ⟨entry, _, rfl⟩ := List.mem_map.mp ht
    exact quiet_resolveEntry p config entry
  have hturn : ∀ tasks : List (Logged Failure TypeOrigins.Outcome), (∀ t ∈ tasks, t.Quiet) →
      (inTurn tasks).Quiet := by
    intro tasks
    induction tasks with
    | nil => exact fun _ => Quiet.ok _
    | cons t rest ih =>
      intro h
      refine (h t List.mem_cons_self).bind fun _ => ?_
      exact (ih fun t' ht' => h t' (List.mem_cons_of_mem t ht')).bind fun _ => Quiet.ok _
  unfold resolveEntries
  dsimp only
  split
  · refine (Quiet.say (by simp [Event.level])).bind fun _ e he => ?_
    obtain ⟨t, ht, he⟩ := List.mem_flatMap.mp he
    exact htasks t ht e he
  · exact hturn _ htasks

theorem quiet_analyze (p : Program) (config : Config) : (analyze p config).Quiet := by
  unfold analyze
  refine (quiet_discover p _).bind fun entries => ?_
  refine ((quiet_resolveEntries p config entries).mapError _).bind fun outcomes => ?_
  unfold conclude
  split
  · exact Quiet.fail _
  · exact (Quiet.say (by simp [Event.level])).bind fun _ => Quiet.ok _

/-! ## Settings and facts -/

theorem quiet_config {ε : Type} (s : Settings) (environment : Option String) :
    (s.config environment : Logged ε Config).Quiet := by
  unfold Settings.config
  refine Quiet.bind ?_ fun _ => Quiet.ok _
  unfold Settings.workerCount
  dsimp only
  split
  · exact Quiet.ok _
  · split
    · exact Quiet.ok _
    · split
      · exact Quiet.ok _
      · split
        · exact Quiet.ok _
        · exact (Quiet.say (by simp [Event.level])).bind fun _ => Quiet.ok _

theorem quiet_load (readers : Facts.Readers) (files : FileTree) (path : Path) :
    (Facts.load readers files path).Quiet := by
  unfold Facts.load
  refine (Quiet.lift _).bind fun bytes => (Quiet.lift _).bind fun cs => (Quiet.lift _).bind fun d => ?_
  split
  · refine (Quiet.lift _).bind fun p => ?_
    exact (Quiet.say (by simp [Event.level])).bind fun _ => Quiet.ok _
  · exact Quiet.fail _

end TypeOrigins
