import TypeOrigins.CommandLine.Run
import TypeOrigins.Proofs.Analysis.Exactness
import TypeOrigins.Proofs.Files.Growth
import TypeOrigins.Proofs.Report.Quiet

/-! # What a command leaves behind

A command that stops with a problem stops before it prints or writes anything: settings, facts and
the analysis only look at the files, and what can go wrong after them is no problem of theirs. A
command that ends well leaves the descriptor of all types found, on standard output or in one file.
-/

namespace TypeOrigins.CommandLine
set_option autoImplicit false

/-- Whether a trouble is a problem with settings, facts or the analysis, and not some other reason
for which a command stopped. -/
def isProblem : Trouble → Bool
  | .command _ _ => false
  | _ => true

/-! ## Actions -/

namespace Action
variable {α β : Type} {x : Action α} {f : α → Action β} {w : World}

theorem bind_of_ok {a : α} (h : (x w).1.result = .ok a) :
    ((x >>= f) w).1.result = (f a (x w).2).1.result ∧ ((x >>= f) w).2 = (f a (x w).2).2 := by
  show (bind x f w).1.result = _ ∧ (bind x f w).2 = _
  unfold bind
  simp only [h, and_self]

theorem bind_of_error {t : Trouble} (h : (x w).1.result = .error t) :
    ((x >>= f) w).1.result = .error t ∧ ((x >>= f) w).2 = (x w).2 := by
  show (bind x f w).1.result = _ ∧ (bind x f w).2 = _
  unfold bind
  simp only [h, and_self]

/-- How an action ends in a world: with a value and a world of which `P` holds, or with a trouble
and a world of which `E` holds. -/
structure Ends (x : Action α) (w : World) (P : α → World → Prop) (E : Trouble → World → Prop) :
    Prop where
  value : ∀ a, (x w).1.result = .ok a → P a (x w).2
  trouble : ∀ t, (x w).1.result = .error t → E t (x w).2

namespace Ends
variable {P P' : α → World → Prop} {Q : β → World → Prop} {E E' : Trouble → World → Prop}

theorem mono (h : x.Ends w P E) (hP : ∀ a w', P a w' → P' a w') (hE : ∀ t w', E t w' → E' t w') :
    x.Ends w P' E' :=
  ⟨fun a ha => hP a _ (h.value a ha), fun t ht => hE t _ (h.trouble t ht)⟩

theorem bind (hx : x.Ends w P E) (hf : ∀ a w', P a w' → (f a).Ends w' Q E) :
    (x >>= f).Ends w Q E := by
  cases hr : (x w).1.result with
  | ok a =>
    obtain ⟨hresult, hworld⟩ := bind_of_ok (f := f) hr
    have hnext := hf a _ (hx.value a hr)
    constructor
    · intro b hb
      rw [hresult] at hb
      rw [hworld]
      exact hnext.value b hb
    · intro t ht
      rw [hresult] at ht
      rw [hworld]
      exact hnext.trouble t ht
  | error t =>
    obtain ⟨hresult, hworld⟩ := bind_of_error (f := f) hr
    constructor
    · intro b hb
      rw [hresult] at hb
      cases hb
    · intro t' ht'
      rw [hresult] at ht'
      cases ht'
      rw [hworld]
      exact hx.trouble t hr

theorem look_bind {g : FileTree → Logged Trouble α} (hE : ∀ t, E t w)
    (hf : ∀ a, (g w.files).result = .ok a → (f a).Ends w Q E) : (Action.look g >>= f).Ends w Q E := by
  have hlook : (Action.look g).Ends w (fun a w' => (g w.files).result = .ok a ∧ w' = w) E :=
    ⟨fun _ ha => ⟨ha, rfl⟩, fun t _ => hE t⟩
  refine hlook.bind ?_
  rintro a _ ⟨ha, rfl⟩
  exact hf a ha

theorem stop (t : Trouble) (w : World) :
    (Action.stop t : Action α).Ends w (fun _ _ => False) (fun t' _ => t' = t) := by
  constructor
  · intro a ha
    cases ha
  · intro t' ht'
    cases ht'
    rfl

theorem say (e : Event) (w : World) :
    (Action.say e).Ends w (fun _ w' => w' = w) (fun _ _ => False) := by
  constructor
  · intro a _
    rfl
  · intro t ht
    cases ht

theorem print (text : String) (w : World) :
    (Action.print text).Ends w (fun _ w' => w' = { w with output := w.output ++ text })
      (fun _ _ => False) := by
  constructor
  · intro a _
    rfl
  · intro t ht
    cases ht

theorem change (c : FileTree → FileTree × Option FileError) (trouble : FileError → Trouble)
    (w : World) :
    (Action.change c trouble).Ends w
      (fun _ w' => (c w.files).2 = none ∧ w' = { w with files := (c w.files).1 })
      (fun t _ => ∃ e, t = trouble e) := by
  unfold Action.change
  constructor
  · intro a ha
    dsimp only at ha ⊢
    cases hc : (c w.files).2 with
    | none => exact ⟨rfl, rfl⟩
    | some e =>
      rw [hc] at ha
      cases ha
  · intro t ht
    dsimp only at ht
    cases hc : (c w.files).2 with
    | none =>
      rw [hc] at ht
      cases ht
    | some e =>
      rw [hc] at ht
      cases ht
      exact ⟨e, rfl⟩

end Ends

/-- An action says no error, in whatever world. -/
def Quiet (x : Action α) : Prop := ∀ w, (x w).1.Quiet

theorem Quiet.bind (hx : x.Quiet) (hf : ∀ a, (f a).Quiet) : (x >>= f).Quiet := by
  intro w
  show (Action.bind x f w).1.Quiet
  unfold Action.bind
  dsimp only
  split
  · next a _ =>
    intro e he
    rcases List.mem_append.mp he with he | he
    · exact hx w e he
    · exact hf a _ e he
  · exact hx w

theorem Quiet.say {e : Event} (h : e.level ≠ .error) : (Action.say e).Quiet :=
  fun _ => Logged.Quiet.say h

theorem Quiet.look {g : FileTree → Logged Trouble α} (h : ∀ files, (g files).Quiet) :
    (Action.look g).Quiet := fun w => h w.files

theorem Quiet.print (text : String) : (Action.print text).Quiet := fun _ => .ok _

theorem Quiet.stop (t : Trouble) : (Action.stop t : Action α).Quiet := fun _ => .fail _

theorem Quiet.change (c : FileTree → FileTree × Option FileError) (trouble : FileError → Trouble) :
    (Action.change c trouble).Quiet := by
  intro w
  unfold Action.change
  dsimp only
  split
  · exact .ok _
  · exact .fail _

end Action

/-! ## Emission -/

/-- A world with a descriptor emitted: printed, or written to a file and nothing else. -/
def Emitted (i : Invocation) (text : String) (w w' : World) : Prop :=
  (i.output = .absent ∧ w'.output = w.output ++ text ∧ w'.files = w.files) ∨
    ∃ path, i.output = .value path ∧ w'.output = w.output ∧
      FileTree.Wrote path (Text.encodeUtf8 text.toList) w.files w'.files

section Commands
variable (environment : Option String) (i : Invocation)

theorem attempt_snd_eq_none {t : FileTree} {r : Except FileError FileTree}
    (h : (t.attempt r).2 = none) : r = .ok (t.attempt r).1 := by
  cases r with
  | ok t' => rfl
  | error e => cases h

theorem ends_writeDescriptor (path : Path) (text : String) (w : World) :
    (writeDescriptor i path text).Ends w
      (fun _ w' => w'.output = w.output ∧
        FileTree.Wrote path (Text.encodeUtf8 text.toList) w.files w'.files)
      (fun t _ => isProblem t = false) := by
  have hfault : ∀ (t : Trouble) (w' : World), (∃ e : FileError, t = failure i e.message) →
      isProblem t = false := by
    rintro t w' ⟨e, rfl⟩
    rfl
  unfold writeDescriptor
  refine ((Action.Ends.change _ _ w).mono (fun _ _ h => h) hfault).bind ?_
  rintro _ _ ⟨_, rfl⟩
  refine ((Action.Ends.change _ _ _).mono (fun _ _ h => h) hfault).bind ?_
  rintro _ _ ⟨hwritten, rfl⟩
  refine (Action.Ends.say _ _).mono ?_ fun _ _ h => h.elim
  rintro _ _ rfl
  exact ⟨rfl, (FileTree.Made.makeDirectories _ _ _).wrote (attempt_snd_eq_none hwritten)⟩

theorem ends_emitDescriptor (text : String) (w : World) :
    (emitDescriptor i text).Ends w (fun _ w' => Emitted i text w w') (fun t _ => isProblem t = false) := by
  unfold emitDescriptor
  split
  · next hout =>
    refine (Action.Ends.print text w).mono ?_ fun _ _ h => h.elim
    rintro _ _ rfl
    exact Or.inl ⟨hout, rfl, rfl⟩
  · refine (Action.Ends.stop _ w).mono (fun _ _ h => h.elim) ?_
    rintro _ _ rfl
    rfl
  · next path hout =>
    refine (ends_writeDescriptor i path text w).mono ?_ fun _ _ h => h
    exact fun _ _ h => Or.inr ⟨path, hout, h⟩

/-! ## Commands -/

/-- Nothing can go wrong with a problem once a command no longer only looks. -/
theorem ends_runAnalyze (w : World) :
    (runAnalyze environment i).Ends w
      (fun _ w' => ∃ config program a, (configFor w.files environment i).result = .ok config ∧
        (programFor w.files i).result = .ok program ∧ (analyze program config).result = .ok a ∧
        Emitted i a.render w w')
      (fun t w' => isProblem t = true → w' = w) := by
  have hsame : ∀ t, isProblem t = true → w = w := fun _ _ => rfl
  unfold runAnalyze
  refine Action.Ends.look_bind hsame fun config hconfig => ?_
  refine ((Action.Ends.say _ w).mono (fun _ _ h => h) fun _ _ h => h.elim).bind ?_
  intro _ w' hw
  rw [hw]
  refine Action.Ends.look_bind hsame fun program hprogram => ?_
  refine Action.Ends.look_bind hsame fun a ha => ?_
  have hok : (analyze program config).result = .ok a := by
    rw [Logged.result_mapError] at ha
    cases hr : (analyze program config).result with
    | ok a' =>
      rw [hr] at ha
      cases ha
      rfl
    | error e =>
      rw [hr] at ha
      cases ha
  refine (ends_emitDescriptor i a.render w).mono ?_ ?_
  · exact fun _ w' hemitted => ⟨config, program, a, hconfig, hprogram, hok, hemitted⟩
  · intro t w' hnot hproblem
    rw [hnot] at hproblem
    cases hproblem

theorem ends_printLines (entries : List Entry) (w : World) :
    (printLines i entries).Ends w (fun _ _ => True) (fun t _ => isProblem t = false) := by
  induction entries generalizing w with
  | nil => exact ⟨fun _ _ => trivial, fun t ht => by cases ht⟩
  | cons e rest ih =>
    unfold printLines
    split
    · refine ((Action.Ends.print _ w).mono (fun _ _ h => h) fun _ _ h => h.elim).bind ?_
      exact fun _ w' _ => ih w'
    · refine (Action.Ends.stop _ w).mono (fun _ _ h => h.elim) ?_
      rintro _ _ rfl
      rfl

theorem ends_printDocument (entries : List Entry) (w : World) :
    (printDocument i entries).Ends w (fun _ _ => True) (fun t _ => isProblem t = false) := by
  unfold printDocument
  split
  · exact (Action.Ends.print _ w).mono (fun _ _ _ => trivial) fun _ _ h => h.elim
  · refine (Action.Ends.stop _ w).mono (fun _ _ h => h.elim) ?_
    rintro _ _ rfl
    rfl

theorem ends_runCallSites (w : World) :
    (runCallSites environment i).Ends w (fun _ _ => True) (fun t w' => isProblem t = true → w' = w) := by
  have hsame : ∀ t, isProblem t = true → w = w := fun _ _ => rfl
  unfold runCallSites
  refine Action.Ends.look_bind hsame fun config _ => ?_
  refine Action.Ends.look_bind hsame fun program _ => ?_
  refine Action.Ends.look_bind hsame fun entries _ => ?_
  have hnot : ∀ (t : Trouble) (w' : World), isProblem t = false → isProblem t = true → w' = w := by
    intro t w' h h'
    rw [h] at h'
    cases h'
  split
  · exact (ends_printDocument i entries w).mono (fun _ _ h => h) hnot
  · exact (ends_printLines i entries w).mono (fun _ _ h => h) hnot

theorem world_of_problem {t : Trouble} {w : World}
    (h : (runCommand environment i w).1.result = .error t) (ht : isProblem t = true) :
    (runCommand environment i w).2 = w := by
  unfold runCommand at h ⊢
  cases hc : i.command with
  | analyze =>
    rw [hc] at h
    exact (ends_runAnalyze environment i w).trouble t h ht
  | callSites =>
    rw [hc] at h
    exact (ends_runCallSites environment i w).trouble t h ht

/-! ## Events -/

theorem quiet_configFor (files : FileTree) : (configFor files environment i).Quiet := by
  unfold configFor
  exact (Logged.Quiet.lift _).bind fun s => quiet_config s environment

theorem quiet_emitDescriptor (text : String) : (emitDescriptor i text).Quiet := by
  unfold emitDescriptor
  split
  · exact .print text
  · exact .stop _
  · unfold writeDescriptor
    exact (Action.Quiet.change _ _).bind fun _ => (Action.Quiet.change _ _).bind fun _ =>
      .say (by simp [Event.level])

theorem quiet_printLines (entries : List Entry) : (printLines i entries).Quiet := by
  induction entries with
  | nil => exact fun _ => .ok _
  | cons e rest ih =>
    unfold printLines
    split
    · exact (Action.Quiet.print _).bind fun _ => ih
    · exact .stop _

theorem quiet_runCommand : (runCommand environment i).Quiet := by
  have hconfig : ∀ files, (configFor files environment i).Quiet := quiet_configFor environment i
  have hprogram : ∀ files, (programFor files i).Quiet := fun files =>
    (quiet_load .standard files i.facts).mapError _
  unfold runCommand
  split
  · unfold runAnalyze
    refine (Action.Quiet.look hconfig).bind fun config => ?_
    refine (Action.Quiet.say (by simp [Event.level])).bind fun _ => ?_
    refine (Action.Quiet.look hprogram).bind fun program => ?_
    refine (Action.Quiet.look fun _ => (quiet_analyze program config).mapError _).bind fun a => ?_
    exact quiet_emitDescriptor i a.render
  · unfold runCallSites
    refine (Action.Quiet.look hconfig).bind fun config => ?_
    refine (Action.Quiet.look hprogram).bind fun program => ?_
    refine (Action.Quiet.look fun _ => quiet_discover program config.apis).bind fun entries => ?_
    split
    · unfold printDocument
      split
      · exact .print _
      · exact .stop _
    · exact quiet_printLines i entries

end Commands

/-! ## The program -/

/-- The events that are shown. -/
def shown (i : Invocation) (events : List Event) : List Event :=
  events.filter fun e => (threshold i.verbosity).rank ≤ e.level.rank

theorem rank_threshold_le (n : ℕ) : (threshold n).rank ≤ Level.error.rank := by
  unfold threshold
  split <;> decide

theorem shown_reports (i : Invocation) (ts : List Trouble) :
    shown i (ts.map .troubleReported) = ts.map .troubleReported := by
  unfold shown
  rw [List.filter_eq_self]
  intro e he
  obtain ⟨t, _, rfl⟩ := List.mem_map.mp he
  exact decide_eq_true (rank_threshold_le i.verbosity)

section Runs
variable {files : FileTree} {environment : Option String} {words : List String} {i : Invocation}
  (hi : Invocation.ofWords words = .ok i)
include hi

theorem run_of_ok {u : Unit} (h : (runCommand environment i { files := files }).1.result = .ok u) :
    run files environment words =
      { exit := 0, output := (runCommand environment i { files := files }).2.output,
        events := shown i (runCommand environment i { files := files }).1.events,
        files := (runCommand environment i { files := files }).2.files } := by
  unfold run
  simp only [hi, h]
  rfl

theorem run_of_error {t : Trouble}
    (h : (runCommand environment i { files := files }).1.result = .error t) :
    run files environment words =
      { exit := 1, output := (runCommand environment i { files := files }).2.output,
        events := shown i ((runCommand environment i { files := files }).1.events ++
          (reports t).map .troubleReported),
        files := (runCommand environment i { files := files }).2.files } := by
  unfold run
  simp only [hi, h]
  rfl

theorem errors_of_run {t : Trouble}
    (h : (runCommand environment i { files := files }).1.result = .error t) :
    ∃ earlier, (∀ e ∈ earlier, e.level ≠ .error) ∧
      (run files environment words).events =
        earlier ++ (failuresWithin t).map (fun f => .troubleReported (.resolution f)) ++
          [.troubleReported t] := by
  refine ⟨shown i (runCommand environment i { files := files }).1.events, ?_, ?_⟩
  · intro e he
    exact quiet_runCommand environment i _ e (List.mem_filter.mp he).1
  · rw [run_of_error hi h]
    dsimp only
    unfold shown
    rw [List.filter_append]
    show _ ++ shown i _ = _
    rw [shown_reports]
    unfold reports
    rw [List.map_append, List.map_map, List.append_assoc]
    rfl

end Runs

/-- A command that ends with a problem prints nothing, leaves all files as they were and reports the
problem last, after the failures that it is about. An analysis that ends well gives the descriptor of
exactly the types that the searches for its entries found, on standard output or in the one file that
it writes. -/
theorem run_leaves_no_trace (files : FileTree) (environment : Option String) (words : List String)
    (i : Invocation) (hi : Invocation.ofWords words = .ok i) :
    (∀ t, (runCommand environment i { files := files }).1.result = .error t → isProblem t = true →
      (run files environment words).exit = 1 ∧ (run files environment words).output = "" ∧
      (run files environment words).files = files ∧
      ∃ earlier, (∀ e ∈ earlier, e.level ≠ .error) ∧
        (run files environment words).events =
          earlier ++ (failuresWithin t).map (fun f => .troubleReported (.resolution f)) ++
            [.troubleReported t]) ∧
    (i.command = .analyze → (run files environment words).exit = 0 →
      ∃ config program a, (configFor files environment i).result = .ok config ∧
        (programFor files i).result = .ok program ∧ (analyze program config).result = .ok a ∧
        (∀ r, r ∈ a.keepList.toList ↔ ∃ e ∈ program.entries config.apis, ∃ refs,
          (resolve program config.maxDepth e.site (some e.api)).result = .ok refs ∧ r ∈ refs) ∧
        ((i.output = .absent ∧ (run files environment words).output = Descriptor.render a.keepList ∧
            (run files environment words).files = files) ∨
          ∃ path, i.output = .value path ∧ (run files environment words).output = "" ∧
            FileTree.Wrote path (Text.encodeUtf8 (Descriptor.render a.keepList).toList) files
              (run files environment words).files)) := by
  constructor
  · intro t ht hproblem
    have hworld := world_of_problem environment i ht hproblem
    refine ⟨?_, ?_, ?_, errors_of_run hi ht⟩
    · rw [run_of_error hi ht]
    · rw [run_of_error hi ht]
      dsimp only
      rw [hworld]
    · rw [run_of_error hi ht]
      dsimp only
      rw [hworld]
  · intro hcommand hexit
    cases hr : (runCommand environment i { files := files }).1.result with
    | error t =>
      rw [run_of_error hi hr] at hexit
      cases hexit
    | ok u =>
      have hrun := run_of_ok hi hr
      have hanalyze : runCommand environment i = runAnalyze environment i := by
        unfold runCommand
        rw [hcommand]
      rw [hanalyze] at hr hrun
      obtain ⟨config, program, a, hconfig, hprogram, ha, hemitted⟩ :=
        (ends_runAnalyze environment i { files := files }).value u hr
      refine ⟨config, program, a, hconfig, hprogram, ha, fun r => ?_, ?_⟩
      · rw [KeepList.toList, mem_keepList_of_analyze ha]
        constructor
        · rintro ⟨x, hx, hrx⟩
          obtain ⟨e, he, _, hres⟩ := (mem_resolved_of_analyze ha).mp hx
          exact ⟨e, he, x.2, hres, hrx⟩
        · rintro ⟨e, he, refs, hres, hrefs⟩
          exact ⟨(e.site.id, refs), (mem_resolved_of_analyze ha).mpr ⟨e, he, rfl, hres⟩, hrefs⟩
      · rw [hrun]
        rcases hemitted with ⟨hout, htext, hfiles⟩ | ⟨path, hout, htext, hwrote⟩
        · exact Or.inl ⟨hout, htext.trans (String.empty_append), hfiles⟩
        · exact Or.inr ⟨path, hout, htext, hwrote⟩

/-! ## A descriptor that is built again

An empty program gets its first descriptor. Then a call is added whose type cannot be traced, and the
old descriptor stays. -/

namespace Rebuild

def words : List String := ["analyze", "facts.json", "-o", "out/keep.xml", "--collect-failures"]

def invocation : Invocation where
  command := .analyze
  facts := ⟨"", ["facts.json"]⟩
  output := .value ⟨"", ["out", "keep.xml"]⟩
  collectFailures := true

def encoded (text : String) : FileNode := .file (Text.encodeUtf8 text.toList)

def facts (calls : List Document) : FileNode :=
  encoded (Json.write (.object [("schema_version", .int 1), ("call_sites", .list calls)]))

def literalCall : Document :=
  .object [("id", .text "create"),
    ("location", .object [("path", .text "App.cs"), ("line", .int 1)]),
    ("target", .object [("method_id", .text "CreateInstance"),
      ("declaring_type", .text "System.Activator"), ("name", .text "CreateInstance")]),
    ("arguments", .list [.object [("kind", .text "literal")]])]

def before : FileTree where
  nodes := [(["facts.json"], facts [])]

def after : FileTree where
  nodes := [(["facts.json"], facts [literalCall]), (["out"], .directory),
    (["out", "keep.xml"], encoded "old")]

end Rebuild

open Rebuild in
theorem run_keeps_old_descriptor :
    Invocation.ofWords words = .ok invocation ∧
      (∃ text, (run before none words).files.read ⟨"", ["out", "keep.xml"]⟩ =
          .ok (Text.encodeUtf8 (Descriptor.render text).toList) ∧
        ∀ q, (run before none words).files.node? q ≠ before.node? q →
          (run before none words).files.locate ⟨"", ["out", "keep.xml"]⟩ = .ok q ∨
            before.node? q = none) ∧
      ∃ t f, (runCommand none invocation { files := after }).1.result = .error t ∧
        failuresWithin t = [f] ∧ (run after none words).exit = 1 ∧
        (run after none words).output = "" ∧ (run after none words).files = after ∧
        ∃ earlier, (∀ e ∈ earlier, e.level ≠ .error) ∧ (run after none words).events =
          earlier ++ [.troubleReported (.resolution f), .troubleReported t] := by
  have hi : Invocation.ofWords words = .ok invocation := by rfl
  refine ⟨hi, ?_, ?_⟩
  · have hexit : (run before none words).exit = 0 := by decide +kernel
    obtain ⟨_, _, a, _, _, _, _, ⟨hout, _⟩ | ⟨path, hout, _, hread, hchanged⟩⟩ :=
      (run_leaves_no_trace before none words invocation hi).2 rfl hexit
    · cases hout
    · cases hout
      refine ⟨a.keepList, hread, fun q hq => ?_⟩
      exact (hchanged q hq).imp id fun h => h.1
  · have hstop : ((runCommand none invocation { files := after }).1.result.mapError fun t =>
        (isProblem t, (failuresWithin t).length)) = .error (true, 1) := by decide +kernel
    cases hr : (runCommand none invocation { files := after }).1.result with
    | ok u =>
      rw [hr] at hstop
      cases hstop
    | error t =>
      rw [hr] at hstop
      obtain ⟨hproblem, hlength⟩ := Prod.mk.inj (Except.error.inj hstop)
      obtain ⟨f, hf⟩ := List.length_eq_one_iff.mp hlength
      obtain ⟨hexit, houtput, hfiles, earlier, hquiet, hevents⟩ :=
        (run_leaves_no_trace after none words invocation hi).1 t hr hproblem
      refine ⟨t, f, rfl, hf, hexit, houtput, hfiles, earlier, hquiet, ?_⟩
      rw [hevents, hf, List.append_assoc]
      rfl

end TypeOrigins.CommandLine
