import TypeOrigins.Proofs.Analysis.Exactness
import TypeOrigins.Proofs.Origin.DepthLimit
import TypeOrigins.Proofs.Origin.Extension

/-! # Analyses with further calls

Adding code never takes a type off the keep list. If a program with further calls can be analyzed,
then without them the keep list is a part of the one with them, or there is none because the depth
limit is exceeded: a further call can only shorten the ways that are there. That failure is reported
as such if the numbers in it can be written. -/

namespace TypeOrigins
set_option autoImplicit false

namespace Program.Extended
variable {p q : Program} (h : p.Extended q) (hq : (q.callSites.map CallSite.id).Nodup)
include h hq

theorem entries_subset {apis : List Api} {e : Entry} (he : e ∈ p.entries apis) : e ∈ q.entries apis := by
  obtain ⟨hsite, hapi⟩ := (mem_entries (h.nodup hq)).mp he
  exact (mem_entries hq).mpr ⟨h.callSites.subset hsite, hapi⟩

variable {config : Config} {b : Analysis} (hb : (analyze q config).result = .ok b)
include hb

/-- What an entry comes to without the further calls. -/
theorem entry_cases {e : Entry} (he : e ∈ p.entries config.apis) :
    (∃ refs, (resolve p config.maxDepth e.site (some e.api)).result = .ok refs ∧
        ∃ y ∈ b.resolved, y.1 = e.site.id ∧ ∀ r ∈ refs, r ∈ y.2) ∨
      ∃ f, (resolve p config.maxDepth e.site (some e.api)).result = .error f ∧
        f.cause = .depthExceeded config.maxDepth := by
  have hsite := ((mem_entries (h.nodup hq)).mp he).1
  have he' := h.entries_subset hq he
  obtain ⟨refs', hr'⟩ := exists_analyze_iff.mp ⟨b, hb⟩ e he'
  rcases h.resolve_cases hq hsite hr' with ⟨refs, hr, hsub⟩ | hdeep
  · refine Or.inl ⟨refs, hr, (e.site.id, refs'), ?_, rfl, hsub⟩
    exact (mem_resolved_of_analyze hb).mpr ⟨e, he', rfl, hr'⟩
  · exact Or.inr hdeep

theorem resolved_subset {a : Analysis} (ha : (analyze p config).result = .ok a)
    {x : String × List TypeReference} (hx : x ∈ a.resolved) :
    ∃ y ∈ b.resolved, y.1 = x.1 ∧ ∀ r ∈ x.2, r ∈ y.2 := by
  obtain ⟨e, he, hid, hr⟩ := (mem_resolved_of_analyze ha).mp hx
  rcases h.entry_cases hq hb he with ⟨refs, hr', y, hy, hyid, hsub⟩ | ⟨f, hf, _⟩
  · rw [hr] at hr'
    cases hr'
    exact ⟨y, hy, hyid.trans hid.symm, hsub⟩
  · rw [hr] at hf
    cases hf

theorem failure_cause {e : Entry} (he : e ∈ p.entries config.apis) {f : Failure}
    (hf : (resolve p config.maxDepth e.site (some e.api)).result = .error f) :
    f.cause = .depthExceeded config.maxDepth := by
  rcases h.entry_cases hq hb he with ⟨refs, hr, _⟩ | ⟨f', hf', hcause⟩
  · rw [hf] at hr
    cases hr
  · rw [hf] at hf'
    cases hf'
    exact hcause

theorem failure_raised {e : Entry} (he : e ∈ p.entries config.apis) {f : Failure}
    (hf : (resolve p config.maxDepth e.site (some e.api)).result = .error f) :
    f.raised = .ok .depthLimit ∨ f.raised = .error .longInteger ∧
      ((∃ c ∈ p.callSites, c.location.isWritable = false) ∨ Text.isLong config.maxDepth = true) := by
  have hp := h.nodup hq
  have hsite := ((mem_entries hp).mp he).1
  have hcause := h.failure_cause hq hb he hf
  have hat : f.site ∈ p.callSites := by
    obtain ⟨c, hc, rfl⟩ := resolve_depthLimit hf (by rw [hcause]; rfl)
    exact (List.mem_cons.mp hc).elim (fun he => he ▸ hsite) id
  rcases raised_of_depthExceeded hp hsite hf hcause with hok | ⟨hlong, hreason⟩
  · exact Or.inl hok
  · refine Or.inr ⟨hlong, ?_⟩
    rcases hreason with hlocation | hlocation | hlimit
    · exact Or.inl ⟨f.site, hat, hlocation⟩
    · exact Or.inl ⟨e.site, hsite, hlocation⟩
    · exact Or.inr hlimit

end Program.Extended

/-- If a program with further calls can be analyzed, then without them its keep list and the types of
each entry are a part of what they are with them, or the analysis fails at its limit. It says so,
alone or in every collected failure, unless it ends with a number that is too long to be written. -/
theorem analyze_of_extended (p q : Program) (h : p.Extended q)
    (hq : (q.callSites.map CallSite.id).Nodup) (config : Config) (b : Analysis)
    (hb : (analyze q config).result = .ok b) :
    (∃ a, (analyze p config).result = .ok a ∧ (∀ r ∈ a.keepList.toList, r ∈ b.keepList.toList) ∧
        ∀ x ∈ a.resolved, ∃ y ∈ b.resolved, y.1 = x.1 ∧ ∀ r ∈ x.2, r ∈ y.2) ∨
      (∃ f, (analyze p config).result = .error (.failed f) ∧
        f.cause = .depthExceeded config.maxDepth ∧
        (f.raised = .ok .depthLimit ∨ f.raised = .error .longInteger ∧
          ((∃ c ∈ p.callSites, c.location.isWritable = false) ∨
            Text.isLong config.maxDepth = true))) ∨
      ∃ f fs, (analyze p config).result = .error (.collected (f :: fs)) ∧
        ∀ g ∈ f :: fs, g.cause = .depthExceeded config.maxDepth ∧ g.raised = .ok .depthLimit := by
  cases ha : (analyze p config).result with
  | ok a =>
    have hsub : ∀ x ∈ a.resolved, ∃ y ∈ b.resolved, y.1 = x.1 ∧ ∀ r ∈ x.2, r ∈ y.2 :=
      fun x hx => h.resolved_subset hq hb ha hx
    refine Or.inl ⟨a, rfl, fun r hr => ?_, hsub⟩
    obtain ⟨x, hx, hrx⟩ := (mem_keepList_of_analyze ha).mp hr
    obtain ⟨y, hy, _, hxy⟩ := hsub x hx
    exact (mem_keepList_of_analyze hb).mpr ⟨y, hy, hxy r hrx⟩
  | error err =>
    obtain ⟨f, fs, herr, hall⟩ := analyze_error_cases ha
    rcases herr with ⟨rfl, rfl⟩ | ⟨rfl, hreported⟩
    · obtain ⟨e, he, hfail⟩ := hall f List.mem_cons_self
      exact Or.inr (Or.inl
        ⟨f, rfl, h.failure_cause hq hb he hfail, h.failure_raised hq hb he hfail⟩)
    · refine Or.inr (Or.inr ⟨f, fs, rfl, fun g hg => ?_⟩)
      obtain ⟨e, he, hfail⟩ := hall g hg
      refine ⟨h.failure_cause hq hb he hfail, ?_⟩
      rcases h.failure_raised hq hb he hfail with hok | ⟨hlong, _⟩
      · exact hok
      · have hg' := hreported g hg
        rw [Failure.isReported, hlong] at hg'
        cases hg'

/-! ## A factory behind two wrappers

`Outer` passes its parameter on to `Wrap`, and `Wrap` to `Make`, which builds the object. Among the
further calls are a shortcut from `Outer` to `Make`, which brings the first entry call nearer, and
another entry call. -/

namespace Wrappers

def method (name : String) : Method where
  id := name
  declaringType := "App.Factory"
  name := name
  parameters := ["type"]

/-- A call that passes on the parameter of the method in which it stands. -/
def passOn (id caller : String) (target : Target) : CallSite where
  id := id
  location := ⟨"Factory.cs", 1, 0⟩
  target := target
  enclosingMethod := some caller
  arguments := [.parameterRef { text := "type" } caller 0]

def create : CallSite := passOn "create" "Make" ⟨"CreateInstance", "System.Activator", "CreateInstance"⟩

def wrap : CallSite := passOn "wrap" "Wrap" ⟨"Make", "App.Factory", "Make"⟩

def outer : CallSite := passOn "outer" "Outer" ⟨"Wrap", "App.Factory", "Wrap"⟩

def shortcut : CallSite := passOn "shortcut" "Outer" ⟨"Make", "App.Factory", "Make"⟩

/-- A call that passes a type to `Outer`. -/
def entry (id type : String) : CallSite where
  id := id
  location := ⟨"Program.cs", 9, 0⟩
  target := ⟨"Outer", "App.Factory", "Outer"⟩
  arguments := [.typeOf { text := type } (.named type "App" [])]

def program (callSites : List CallSite) : Program where
  methods := [method "Make", method "Wrap", method "Outer"]
  callSites := callSites

def before : Program := program [create, wrap, outer, entry "entry" "Widget"]

def after : Program :=
  program [entry "other" "Gadget", create, wrap, shortcut, outer, entry "entry" "Widget"]

end Wrappers

open Wrappers in
theorem analyze_before_further_calls :
    before.Extended after ∧ (after.callSites.map CallSite.id).Nodup ∧
      (∃ a b, (analyze before { maxDepth := 3 }).result = .ok a ∧
        (analyze after { maxDepth := 3 }).result = .ok b ∧
        (∀ r ∈ a.keepList.toList, r ∈ b.keepList.toList) ∧
        ⟨"App", "Gadget"⟩ ∈ b.keepList.toList ∧ ⟨"App", "Gadget"⟩ ∉ a.keepList.toList) ∧
      ∃ f b, (analyze before { maxDepth := 2 }).result = .error (.failed f) ∧
        f.cause = .depthExceeded 2 ∧ (analyze after { maxDepth := 2 }).result = .ok b := by
  have h : before.Extended after := ⟨rfl, rfl, by decide⟩
  have hq : (after.callSites.map CallSite.id).Nodup := by decide
  refine ⟨h, hq, ?_, ?_⟩
  · obtain ⟨a, ha, hgadget⟩ : ∃ a, (analyze before { maxDepth := 3 }).result = .ok a ∧
        ⟨"App", "Gadget"⟩ ∉ a.keepList.toList := ⟨_, rfl, by decide⟩
    obtain ⟨b, hb, hgadget'⟩ : ∃ b, (analyze after { maxDepth := 3 }).result = .ok b ∧
        ⟨"App", "Gadget"⟩ ∈ b.keepList.toList := ⟨_, rfl, by decide⟩
    rcases analyze_of_extended before after h hq _ b hb with ⟨a', ha', hsub, _⟩ | ⟨f, hf, _⟩ | ⟨f, fs, hf, _⟩
    · obtain rfl : a = a' := Except.ok.inj (ha.symm.trans ha')
      exact ⟨a, b, ha, hb, hsub, hgadget', hgadget⟩
    · cases ha.symm.trans hf
    · cases ha.symm.trans hf
  · obtain ⟨f, hf⟩ : ∃ f, (analyze before { maxDepth := 2 }).result = .error (.failed f) := ⟨_, rfl⟩
    obtain ⟨b, hb⟩ : ∃ b, (analyze after { maxDepth := 2 }).result = .ok b := ⟨_, rfl⟩
    rcases analyze_of_extended before after h hq _ b hb with ⟨a, ha, _⟩ | ⟨f, hf, hcause, _⟩ | ⟨f, fs, hfs, _⟩
    · cases hf.symm.trans ha
    · exact ⟨f, b, hf, hcause, hb⟩
    · cases hf.symm.trans hfs

/-! The call that the shortcut brings nearer stands on a line with one digit too many. -/

namespace Wrappers

def distant : CallSite :=
  { entry "entry" "Widget" with location := ⟨"Program.cs", Nat.pow 10 Text.digitLimit, 0⟩ }

def distantBefore : Program := program [create, wrap, outer, distant]

def distantAfter : Program := program [create, wrap, shortcut, outer, distant]

end Wrappers

open Wrappers in
theorem analyze_before_shortcut_unwritable :
    distantBefore.Extended distantAfter ∧ (distantAfter.callSites.map CallSite.id).Nodup ∧
      (∃ b, (analyze distantAfter { maxDepth := 2 }).result = .ok b) ∧
      ∀ collect, ∃ f, (analyze distantBefore { maxDepth := 2, collectFailures := collect }).result =
          .error (.failed f) ∧ f.raised = .error .longInteger := by
  have hfail : ∀ collect,
      (analyze distantBefore { maxDepth := 2, collectFailures := collect }).result =
        .error (.failed ⟨distant, "App.Factory.Outer", .depthExceeded 2, some create⟩) := by
    decide +kernel
  refine ⟨⟨rfl, rfl, by decide +kernel⟩, by decide +kernel, ?_, fun collect => ?_⟩
  · exact ⟨_, by rfl⟩
  · exact ⟨_, hfail collect, by decide +kernel⟩

end TypeOrigins
