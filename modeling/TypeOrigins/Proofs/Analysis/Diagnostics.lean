import TypeOrigins.CommandLine.Run
import TypeOrigins.Proofs.Analysis.Alike
import TypeOrigins.Proofs.Facts.WellFormed
import TypeOrigins.Proofs.Origin.Precision

/-! # What is there for a reader

Texts, positions and names in a program serve its messages. Two programs that differ in nothing else
have the same types, or the same kind of failure at the same call. If the positions of all calls can
be written, the two failures can be reported as what they are in both or in neither; one position
with too many digits is enough for the command to stop for that reason instead. -/

namespace TypeOrigins
set_option autoImplicit false

theorem Failure.Alike.problem_eq {f g : Failure} (h : f.Alike .same g) :
    g.problem.code = f.problem.code ∧
      g.problem.extras.get? "call_site" = f.problem.extras.get? "call_site" := by
  have hcode : ∀ f : Failure, f.problem.code = some f.cause.category.code := fun f => rfl
  have hsite : ∀ f : Failure, f.problem.extras.get? "call_site" = some (.text f.site.id) :=
    fun f => rfl
  have hid : g.site.id = f.site.id := h.site
  rw [hcode, hcode, hsite, hsite, h.category, hid]
  exact ⟨rfl, rfl⟩

/-- Failures of one kind surface alike, if both can be written or neither can. -/
theorem Failure.Alike.raised_eq {f g : Failure} (h : f.Alike .same g)
    (hwritable : g.isWritable = f.isWritable) : g.raised = f.raised := by
  -- of the two causes in the general category only one can be written
  have hposition : ∀ c : Cause, c = .positionOutOfRange ↔
      c.category = .general ∧ c.isWritable = true := by
    intro c
    cases c <;> simp [Cause.category, Cause.isWritable]
  have hcause : g.cause = .positionOutOfRange ↔ f.cause = .positionOutOfRange := by
    rw [hposition, hposition, h.category, h.writable]
  unfold Failure.raised
  rw [hwritable, h.category]
  by_cases hf : f.cause = .positionOutOfRange
  · rw [if_pos hf, if_pos (hcause.mpr hf)]
  · rw [if_neg hf, if_neg (hcause.not.mpr hf)]

theorem mem_callSites_of_resolve {p : Program} (hp : (p.callSites.map CallSite.id).Nodup)
    {site : CallSite} (hsite : site ∈ p.callSites) {limit : Int} {api : Option Api} {f : Failure}
    (h : (resolve p limit site api).result = .error f) : f.site ∈ p.callSites := by
  cases hw : seed site api with
  | error g =>
    rw [resolve_eq_error_of_seed hw] at h
    cases h
    rw [(seed_eq_error hw).1]
    exact hsite
  | ok w =>
    have hv := resolve_verdict hp limit hsite hw
    rw [h] at hv
    exact (hv.mem_callSites_of_error hsite).1

/-- Two programs that differ in what is there for a reader only give the same types in the same
order, or fail in the same category at the same call. Where all positions can be written the failures
also surface alike. An analysis gives the same descriptor for both, or fails for both. -/
theorem resolve_ignores_diagnostics (p q : Program) (hp : p.DistinctIds) (h : p.Alike .same q) :
    (∀ c ∈ p.callSites, ∀ d ∈ q.callSites, d.id = c.id → ∀ (limit : Int) (api : Option Api),
      (∃ refs, (resolve p limit c api).result = .ok refs ∧
        (resolve q limit d api).result = .ok refs) ∨
      ∃ f g, (resolve p limit c api).result = .error f ∧ (resolve q limit d api).result = .error g ∧
        g.cause.category = f.cause.category ∧ g.problem.code = f.problem.code ∧
        g.problem.extras.get? "call_site" = f.problem.extras.get? "call_site" ∧
        ((∀ c ∈ p.callSites, c.location.isWritable = true) →
          (∀ d ∈ q.callSites, d.location.isWritable = true) →
            g.isWritable = f.isWritable ∧ g.raised = f.raised)) ∧
    ∀ config : Config,
      (∃ a b, (analyze p config).result = .ok a ∧ (analyze q config).result = .ok b ∧
        b.render = a.render) ∨
      ∃ e e', (analyze p config).result = .error e ∧ (analyze q config).result = .error e' := by
  constructor
  · intro c hc d hd hid limit api
    have hagree := agree_resolve h hp.callSites limit (h.of_mem hp.callSites hc hd hid) api
    generalize hx : (resolve p limit c api).result = x at hagree
    generalize hy : (resolve q limit d api).result = y at hagree
    cases hagree with
    | ok hrefs => exact Or.inl ⟨_, rfl, congrArg _ hrefs.symm⟩
    | @error f g hfg =>
      obtain ⟨hcode, hsite⟩ := hfg.problem_eq
      refine Or.inr ⟨_, _, rfl, rfl, hfg.category, hcode, hsite, ?_⟩
      intro hwritable hwritable'
      have hq := h.nodup_callSites hp.callSites
      have hat := hwritable _ (mem_callSites_of_resolve hp.callSites hc hx)
      have hat' := hwritable' _ (mem_callSites_of_resolve hq hd hy)
      have hsame : g.isWritable = f.isWritable := by
        rw [isWritable_of_resolve hp.callSites hc hx hat (hwritable c hc),
          isWritable_of_resolve hq hd hy hat' (hwritable' d hd), hfg.writable]
      exact ⟨hsame, hfg.raised_eq hsame⟩
  · intro config
    have hiff := exists_analyze_iff_of_alike h hp.callSites config
    cases ha : (analyze p config).result with
    | ok a =>
      obtain ⟨b, hb⟩ := hiff.mp ⟨a, ha⟩
      have hkeep := (results_of_alike h hp.callSites ha hb).1
      exact Or.inl ⟨a, b, rfl, hb, congrArg Descriptor.render hkeep⟩
    | error e =>
      cases hb : (analyze q config).result with
      | ok b =>
        obtain ⟨a, ha'⟩ := hiff.mpr ⟨b, hb⟩
        rw [ha] at ha'
        cases ha'
      | error e' => exact Or.inr ⟨e, e', rfl, rfl⟩

/-! ## The factory, told differently -/

namespace Retold

def program : Program where
  assembly := "Other"
  methods := [⟨"Make", "App.Factory", "Make", ["renamed", "extra"], ["T"], some ⟨"Moved.cs", 1, 1⟩⟩]
  locals := [⟨"kind", "shape", "Elsewhere",
    some (.parameterRef ⟨"t", some (.named "System.Type" "System" [])⟩ "Make" 0), []⟩]
  callSites :=
    [⟨"create", ⟨"Moved.cs", 0, 0⟩, Factory.create.target, none, [], [.localRef {} "kind"]⟩,
      ⟨"again", ⟨"Moved.cs", 0, 0⟩, Factory.again.target, some "", [], [.parameterRef {} "Make" 0]⟩,
      ⟨"entry", ⟨"Moved.cs", 0, 0⟩, ⟨"Make", "App.Factory", "Make"⟩, some "Elsewhere", [],
        [.typeOf {} (.named "App.Widget" "App" [])]⟩]

theorem alike : (Factory.program Factory.widget).Alike .same program where
  methods := .cons ⟨rfl, rfl, rfl⟩ .nil
  locals := .cons ⟨rfl, .some (.parameterRef (.cons rfl .nil)), .nil⟩ .nil
  callSites := .cons ⟨rfl, rfl, .nil, .cons .localRef .nil⟩
    (.cons ⟨rfl, rfl, .nil, .cons (.parameterRef (.cons rfl .nil)) .nil⟩
      (.cons ⟨rfl, rfl, .nil, .cons (.typeOf (.named .nil)) .nil⟩ .nil))

end Retold

theorem resolve_ignores_retelling :
    (Factory.program Factory.widget).DistinctIds ∧
      (Factory.program Factory.widget).Alike .same Retold.program ∧
      (∃ d ∈ Retold.program.callSites, d.id = "create" ∧
        (resolve Retold.program 64 d (some Api.activator)).result = .ok [⟨"App", "App.Widget"⟩]) ∧
      ∃ a b, (analyze (Factory.program Factory.widget) {}).result = .ok a ∧
        (analyze Retold.program {}).result = .ok b ∧ b.render = a.render := by
  have hp : (Factory.program Factory.widget).DistinctIds := ⟨by decide, by decide, by decide⟩
  obtain ⟨hresolve, hanalyze⟩ := resolve_ignores_diagnostics _ _ hp Retold.alike
  have hfound : (resolve (Factory.program Factory.widget) 64 Factory.create
      (some Api.activator)).result = .ok [⟨"App", "App.Widget"⟩] := by rfl
  refine ⟨hp, Retold.alike, ?_, ?_⟩
  · refine ⟨_, List.mem_cons_self, rfl, ?_⟩
    rcases hresolve Factory.create List.mem_cons_self _ List.mem_cons_self rfl 64
      (some Api.activator) with ⟨refs, hr, hr'⟩ | ⟨f, g, hf, _⟩
    · rw [hr', ← hr, hfound]
    · rw [hfound] at hf
      cases hf
  · obtain ⟨a, ha⟩ : ∃ a, (analyze (Factory.program Factory.widget) {}).result = .ok a := ⟨_, rfl⟩
    rcases hanalyze {} with hok | ⟨e, _, he, _⟩
    · exact hok
    · rw [ha] at he
      cases he

/-! ## A line too far

One call, and the line it stands in. -/

namespace FarLine

def call (line : ℕ) : CallSite where
  id := "create"
  location := ⟨"App.cs", line, 0⟩
  target := ⟨"CreateInstance", "System.Activator", "CreateInstance"⟩
  arguments := [.untraced {} .literal]

def program (line : ℕ) : Program where
  callSites := [call line]

theorem analyze_program (line : ℕ) : (analyze (program line) {}).result =
    .error (.failed ⟨call line, "<literal>", .untracedShape "literal", some (call line)⟩) := by rfl

theorem alike (line line' : ℕ) : (program line).Alike .same (program line') where
  methods := .nil
  locals := .nil
  callSites := .cons ⟨rfl, rfl, .nil, .cons .untraced .nil⟩ .nil

theorem report_program (line : ℕ) (i : CommandLine.Invocation) (naming : Problem.Naming) :
    ∃ t, ((analyze (program line) {}).mapError (CommandLine.analysisTrouble i)).result = .error t ∧
      (t.problem naming).code =
        some (if Text.isLong line then "cli.failure" else "resolution.unsupported_pattern") := by
  have hcolumn : Text.isLong 0 = false := by decide +kernel
  have hraised : (⟨call line, "<literal>", .untracedShape "literal", some (call line)⟩ :
      Failure).raised = if Text.isLong line then .error .longInteger else .ok .unsupported := by
    simp only [Failure.raised, Failure.isWritable, Cause.isWritable, Location.isWritable, call, hcolumn]
    cases Text.isLong line <;> rfl
  refine ⟨_, congrArg (Except.mapError _) (analyze_program line), ?_⟩
  simp only [CommandLine.analysisTrouble, hraised]
  cases Text.isLong line <;> rfl

end FarLine

open FarLine CommandLine in
theorem report_depends_on_line :
    (program 1).Alike .same (program (Nat.pow 10 Text.digitLimit)) ∧
      ∀ (i : Invocation) (naming : Problem.Naming),
        ∃ t u, ((analyze (program 1) {}).mapError (analysisTrouble i)).result = .error t ∧
          ((analyze (program (Nat.pow 10 Text.digitLimit)) {}).mapError (analysisTrouble i)).result =
            .error u ∧
          (t.problem naming).code = some "resolution.unsupported_pattern" ∧
          (u.problem naming).code = some "cli.failure" := by
  have hshort : Text.isLong (1 : ℕ) = false := by decide +kernel
  have hlong : ∀ line : ℕ, Nat.pow 10 Text.digitLimit ≤ line → Text.isLong line = true :=
    fun _ => Facts.isLong_of_le
  refine ⟨alike _ _, fun i naming => ?_⟩
  obtain ⟨t, ht, hcode⟩ := report_program 1 i naming
  obtain ⟨u, hu, hcode'⟩ := report_program (Nat.pow 10 Text.digitLimit) i naming
  rw [hshort] at hcode
  rw [hlong _ (Nat.le_refl _)] at hcode'
  exact ⟨t, u, ht, hu, hcode, hcode'⟩

end TypeOrigins
