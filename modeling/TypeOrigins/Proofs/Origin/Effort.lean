import TypeOrigins.Proofs.Origin.Precision
import TypeOrigins.Proofs.Origin.Trace

/-! # The effort of a search

A search ends in every program: calls and initializers may form cycles, identifiers may repeat, and
what they refer to may be missing. It looks at each place at most once, and so at no more places
than there are. No path meets a place twice and each step to a caller is to a new position, so no
path takes more steps than there are positions, however large the limit is. A position that is
counted from both sides is two places, which happens only if an ordinal is negative. -/

namespace TypeOrigins
set_option autoImplicit false

/-! ## Positions -/

/-- The place is a position of a call, not a local. -/
def Place.isPosition (x : Place) : Bool := x.kind != .localVariable

theorem CallSite.isPosition_of_mem_places {c : CallSite} {y : Place} (h : y ∈ c.places) :
    y.isPosition = true := by
  unfold places at h
  rw [List.mem_append, List.mem_map, List.mem_map] at h
  rcases h with ⟨i, _, rfl⟩ | ⟨i, _, rfl⟩ <;> rfl

theorem Program.isPosition_of_mem_positions {p : Program} {y : Place} (h : y ∈ p.positions) :
    y.isPosition = true := by
  obtain ⟨c, _, hy⟩ := List.mem_flatMap.mp h
  exact c.isPosition_of_mem_places hy

theorem Program.filter_isPosition_places (p : Program) :
    p.places.filter Place.isPosition = p.positions := by
  have hlocals : (p.locals.map fun l => (⟨.localVariable, l.id, 0⟩ : Place)).filter Place.isPosition = [] := by
    rw [List.filter_eq_nil_iff]
    intro y hy
    obtain ⟨l, _, rfl⟩ := List.mem_map.mp hy
    exact Bool.false_ne_true
  unfold places
  rw [List.filter_append, hlocals, List.append_nil, List.filter_eq_self]
  exact fun y hy => p.isPosition_of_mem_positions hy

theorem Program.length_filter_isPosition_allPlaces (p : Program) :
    (p.allPlaces.filter Place.isPosition).length = 2 * p.positions.length := by
  have hmirror : (p.positions.map Place.mirror).filter Place.isPosition =
      p.positions.map Place.mirror := by
    rw [List.filter_eq_self]
    intro y hy
    obtain ⟨z, hz, rfl⟩ := List.mem_map.mp hy
    have hpos : z.isPosition = true := p.isPosition_of_mem_positions hz
    exact hpos
  unfold allPlaces
  rw [List.filter_append, p.filter_isPosition_places, hmirror, List.length_append, List.length_map]
  omega

/-- A step is to a position, and an edge that is no step leads to a local. -/
theorem Flow.Edge.isPosition {p : Program} {s s' : Subject} {via : Option CallSite} {y : Place}
    (h : Flow.Edge p s via y s') : y.isPosition = via.isSome := by
  cases h <;> rfl

theorem placeCount_pos_of_seed {site : CallSite} {api : Option Api} {w : Work}
    (h : seed site api = .ok w) : 0 < site.placeCount := by
  unfold CallSite.placeCount
  by_contra hzero
  have htypes : site.typeArguments = [] := List.length_eq_zero_iff.mp (by omega)
  have harguments : site.arguments = [] := List.length_eq_zero_iff.mp (by omega)
  simp only [seed, CallSite.isGeneric, htypes, harguments] at h
  cases h

/-! ## Where edges lead -/

/-- From the subjects of a kind edges lead to subjects of that kind, at the places listed. If
`astray`, an edge can also lead to where nothing stands. -/
def Flow.Closed (p : Program) (A : Subject → Prop) (places : List Place) (astray : Bool) : Prop :=
  ∀ {s : Subject} {via : Option CallSite} {y : Place} {s' : Subject}, A s → Flow.Edge p s via y s' →
    A s' ∧ (y ∈ places ∨ astray = true ∧ s' = .nothing)

theorem Flow.closed_allPlaces (p : Program) : Flow.Closed p (fun _ => True) p.allPlaces true := by
  intro s via y s' _ e
  refine ⟨trivial, ?_⟩
  by_cases hs' : s' = .nothing
  · exact Or.inr ⟨rfl, hs'⟩
  · exact Or.inl (e.mem_allPlaces hs')

/-- The callers are not asked for a position before the first. -/
def Subject.CountsFromStart (s : Subject) : Prop := ∀ k ∈ s.ordinal?, 0 ≤ k

theorem Flow.closed_places {p : Program} (hp : ∀ k ∈ p.ordinals, 0 ≤ k) :
    Flow.Closed p Subject.CountsFromStart p.places false := by
  intro s via y s' hs e
  have hsome : s' ≠ .nothing := by
    rintro rfl
    obtain ⟨k, hk, hneg⟩ := e.position_neg
    have := hs k hk
    omega
  refine ⟨fun k hk => hp k (p.mem_ordinals (e.mem_subjects hsome) hk), Or.inl ?_⟩
  cases e with
  | initializer hl hi ha =>
    refine List.mem_append_right _ (List.mem_map.mpr ⟨_, Program.mem_locals_of_local? hl, ?_⟩)
    rw [Program.id_of_local? hl]
  | @argument note methodId k m c e hm hc he =>
    have hlt := (at?_isSome_iff.mp (Option.isSome_of_eq_some he)).1
    exact List.mem_append_left _ (List.mem_flatMap.mpr
      ⟨c, Program.mem_callSites_of_mem_callersOfMethod hc, c.mem_places_argument (hs k rfl) hlt⟩)
  | @typeArgument _ t m c hsym ho hm hc ht =>
    have hk : t.ordinal ∈ s.ordinal? := by
      rw [Subject.ordinal?_of_symbol? hsym]
      rfl
    exact List.mem_append_left _ (List.mem_flatMap.mpr
      ⟨c, Program.mem_callSites_of_mem_callersOfMethod hc, c.mem_places_typeArgument (hs _ hk) ht⟩)

theorem seed_mem_subjects {site : CallSite} {api : Option Api} {w : Work}
    (h : seed site api = .ok w) : w.subject = .nothing ∨ w.subject ∈ site.subjects := by
  rcases seed_eq_ok h with ⟨i, _, _, rfl⟩ | ⟨i, e, he, rfl⟩
  · exact (site.typeArgumentAt_mem i).imp_right fun ht => CallSite.mem_subjects.mpr (Or.inl ht)
  · exact Or.inr (CallSite.mem_subjects.mpr (Or.inr ⟨e, mem_of_at? he, rfl⟩))

theorem seed_countsFromStart {site : CallSite} {api : Option Api} {w : Work}
    (h : seed site api = .ok w) (hsite : ∀ k ∈ site.ordinals, 0 ≤ k) : w.subject.CountsFromStart := by
  intro k hk
  rcases seed_mem_subjects h with hs | hs
  · rw [hs] at hk
    cases hk
  · exact hsite k (List.mem_filterMap.mpr ⟨_, hs, hk⟩)

theorem seed_mem_places {site : CallSite} {api : Option Api} {w : Work} (h : seed site api = .ok w)
    (hposition : 0 ≤ w.place.position) : w.place ∈ site.places := by
  rcases seed_eq_ok h with ⟨i, _, hlt, rfl⟩ | ⟨i, e, he, rfl⟩
  · exact site.mem_places_typeArgument hposition hlt
  · exact site.mem_places_argument hposition (at?_isSome_iff.mp (Option.isSome_of_eq_some he)).1

/-! ## Paths -/

/-- The places on the path of a piece of work are distinct, and all but one of its positions were
steps. Only the last can be a place where nothing stands. -/
structure Work.OnPath (A : Subject → Prop) (places : List Place) (astray : Bool) (start : Place)
    (w : Work) : Prop where
  subject : A w.subject
  mem : w.place ∈ start :: places ∨ astray = true ∧ w.subject = .nothing
  nodup : w.context.visited.Nodup
  subset : ∀ y ∈ w.context.visited,
    y ∈ start :: places ∨ y = w.place ∧ astray = true ∧ w.subject = .nothing
  positions : (w.context.visited.filter Place.isPosition).length = w.context.depth + 1

namespace Work.OnPath
variable {p : Program} {A : Subject → Prop} {places : List Place} {astray : Bool} {start : Place}
  {w : Work}

theorem follow (hA : Flow.Closed p A places astray) (h : w.OnPath A places astray start)
    {via : Option CallSite} {y : Place} {t : Subject} (e : Flow.Edge p w.subject via y t)
    (hy : y ∉ w.context.visited) : (w.follow via y t).OnPath A places astray start := by
  obtain ⟨ht, hplace⟩ := hA h.subject e
  have hmem : y ∈ start :: places ∨ astray = true ∧ t = .nothing :=
    hplace.imp_left (List.mem_cons_of_mem start)
  have hvisited : (w.follow via y t).context.visited = y :: w.context.visited :=
    Work.follow_visited hy
  constructor
  case subject => rwa [Work.follow_subject]
  case mem => rwa [Work.follow_place, Work.follow_subject]
  case nodup => rw [hvisited]; exact List.nodup_cons.mpr ⟨hy, h.nodup⟩
  case subset =>
    rw [hvisited, Work.follow_place, Work.follow_subject]
    intro z hz
    rcases List.mem_cons.mp hz with rfl | hz
    · exact hmem.imp_right fun hlost => ⟨rfl, hlost⟩
    · refine (h.subset z hz).imp_right fun ⟨_, _, hnothing⟩ => ?_
      rw [hnothing] at e
      cases e with
      | typeArgument hs => cases hs
  case positions =>
    rw [hvisited, Work.follow_depth, List.filter_cons, e.isPosition]
    cases via with
    | none => exact h.positions
    | some d =>
      have := h.positions
      simp only [Option.isSome_some, if_true, List.length_cons, Flow.steps]
      omega

/-- A path has room for one step to each position. -/
theorem depth_le (h : w.OnPath A places astray start) :
    w.context.depth ≤ (places.filter Place.isPosition).length + astray.toNat := by
  have hle : (w.context.visited.filter Place.isPosition).length ≤
      (List.replicate astray.toNat w.place ++ start :: places.filter Place.isPosition).length := by
    apply List.Nodup.length_le_of_subset
    · exact h.nodup.filter _
    · intro y hy
      obtain ⟨hin, hpos⟩ := List.mem_filter.mp hy
      rw [List.mem_append]
      rcases h.subset y hin with hplace | ⟨rfl, rfl, _⟩
      · refine Or.inr ((List.mem_cons.mp hplace).elim (fun hstart => hstart ▸ List.mem_cons_self) ?_)
        exact fun hin => List.mem_cons_of_mem _ (List.mem_filter.mpr ⟨hin, hpos⟩)
      · exact Or.inl (List.mem_singleton_self _)
  rw [h.positions, List.length_append, List.length_replicate, List.length_cons] at hle
  omega

end Work.OnPath

theorem seed_onPath {A : Subject → Prop} (places : List Place) (astray : Bool) {site : CallSite}
    {api : Option Api} {w : Work} (h : seed site api = .ok w) (hw : A w.subject) :
    w.OnPath A places astray w.place := by
  obtain ⟨⟨hkind, _⟩, _, _, hdepth, hvisited⟩ := seed_place h
  have hpos : w.place.isPosition = true := by simpa [Place.isPosition] using hkind
  constructor
  case subject => exact hw
  case mem => exact Or.inl List.mem_cons_self
  case nodup => rw [hvisited]; exact List.nodup_singleton _
  case subset =>
    rw [hvisited]
    exact fun y hy => Or.inl (List.mem_singleton.mp hy ▸ List.mem_cons_self)
  case positions => rw [hvisited, hdepth]; simp [hpos]

/-! ## Loops -/

/-- All work, looked at or waiting, is on a path, and what was looked at is at a place listed. -/
def Search.OnPaths (A : Subject → Prop) (places : List Place) (astray : Bool) (start : Place)
    (T : List Work) (s : Search) : Prop :=
  (∀ v ∈ T, v.OnPath A places astray start ∧ v.place ∈ start :: places) ∧
    ∀ v ∈ s.queue, v.OnPath A places astray start

namespace Search
variable {p : Program} {A : Subject → Prop} {places : List Place} {astray : Bool} {limit : Int}
  {start : Place} {T : List Work} {s : Search} {w : Work} {rest : List Work}

theorem OnPaths.initial (hw : w.OnPath A places astray start) :
    OnPaths A places astray start [] { queue := [w] } := by
  refine ⟨by simp, fun v hv => ?_⟩
  rw [List.mem_singleton.mp hv]
  exact hw

theorem OnPaths.skip (h : OnPaths A places astray start T s) (hq : s.queue = w :: rest) :
    OnPaths A places astray start T { s with queue := rest } :=
  ⟨h.1, fun v hv => h.2 v (hq ▸ List.mem_cons_of_mem w hv)⟩

theorem OnPaths.look (hA : Flow.Closed p A places astray) (h : OnPaths A places astray start T s)
    (hq : s.queue = w :: rest) {x : Expansion} (hx : (w.expand p).result = .ok x) :
    OnPaths A places astray start (T ++ [w]) (s.grow w rest x) := by
  have hw := h.2 w (hq ▸ List.mem_cons_self)
  refine ⟨fun v hv => ?_, fun v hv => ?_⟩
  · rcases List.mem_append.mp hv with hv | hv
    · exact h.1 v hv
    · rw [List.mem_singleton.mp hv]
      exact ⟨hw, hw.mem.resolve_right fun hlost => subject_ne_nothing_of_ok hx hlost.2⟩
  · rcases (Frontier.mem_grow_queue (Work.expanded_of_ok hx)).mp hv with hv | ⟨via, y, t, e, hy, rfl⟩
    · exact h.2 v (hq ▸ List.mem_cons_of_mem w hv)
    · exact hw.follow hA e hy

/-- All work that a loop looks at is on a path, and at a place listed unless it is the last. -/
theorem Loop.onPath {r : Except Failure Search} (h : Loop p limit { queue := [w] } T r)
    (hA : Flow.Closed p A places astray) (hw : w.OnPath A places astray start) :
    (∀ v ∈ T, v.OnPath A places astray start) ∧ T.length ≤ places.length + 1 + astray.toNat := by
  have hnodup := h.sweep.1
  have hbound : ∀ T' : List Work, (T'.map Work.place).Nodup → (∀ v ∈ T', v.place ∈ start :: places) →
      T'.length ≤ places.length + 1 := by
    intro T' hdistinct hin
    rw [← List.length_map (f := Work.place), ← List.length_cons (a := start)]
    refine hdistinct.length_le_of_subset fun y hy => ?_
    obtain ⟨v, hv, rfl⟩ := List.mem_map.mp hy
    exact hin v hv
  rcases h.induction (OnPaths A places astray start) (fun _ _ _ _ hT hq _ => hT.skip hq)
    (fun _ _ _ _ _ hT hq _ hx => hT.look hA hq hx) (.initial hw) with
    ⟨s, rfl, _, hT⟩ | ⟨T', s, v, rest, f, rfl, rfl, hT, hq, hf⟩
  · have := hbound T hnodup fun v hv => (hT.1 v hv).2
    exact ⟨fun v hv => (hT.1 v hv).1, by omega⟩
  · have hv := hT.2 v (hq ▸ List.mem_cons_self)
    refine ⟨fun u hu => ?_, ?_⟩
    · rcases List.mem_append.mp hu with hu | hu
      · exact (hT.1 u hu).1
      · rw [List.mem_singleton.mp hu]
        exact hv
    · rcases hv.mem with hin | ⟨rfl, _⟩
      · have := hbound (T' ++ [v]) hnodup fun u hu => by
          rcases List.mem_append.mp hu with hu | hu
          · exact (hT.1 u hu).2
          · exact List.mem_singleton.mp hu ▸ hin
        omega
      · rw [List.map_append] at hnodup
        have := hbound T' (List.nodup_append.mp hnodup).1 fun u hu => (hT.1 u hu).2
        rw [List.length_append, List.length_singleton, Bool.toNat_true]
        omega

/-- Only work beyond the limit can exceed it. -/
theorem Loop.exists_beyond {f : Failure} (h : Loop p limit s T (.error f))
    (hf : f.cause.category = .depthLimit) : ∃ v ∈ T, limit < (v.context.depth : Int) := by
  generalize hr : Except.error f = r at h
  induction h with
  | done _ => cases hr
  | skip _ _ _ ih => exact ih hr
  | look _ _ _ _ ih =>
    obtain ⟨v, hv, hlt⟩ := ih hr
    exact ⟨v, List.mem_cons_of_mem _ hv, hlt⟩
  | fail _ hadv =>
    cases hr
    refine ⟨_, List.mem_singleton_self _, ?_⟩
    rcases (advance_eq_error.mp hadv).2 with ⟨hlt, _⟩ | ⟨_, hexpand⟩
    · exact hlt
    · exact absurd hf (Work.category_of_expand hexpand)

end Search

/-! ## Whole searches -/

section Bounds
variable {p : Program} {site : CallSite} {api : Option Api} {w : Work} {limit : Int} {T : List Work}
  {r : Except Failure Search}

theorem effort_le (hw : seed site api = .ok w) (h : Search.Loop p limit { queue := [w] } T r) :
    T.length ≤ 2 * (p.placeCount + site.placeCount) ∧
      ∀ v ∈ T, v.context.depth ≤ 2 * (p.positions.length + site.placeCount) := by
  obtain ⟨hpath, hlength⟩ := h.onPath (Flow.closed_allPlaces p) (seed_onPath _ _ hw trivial)
  have hpos := placeCount_pos_of_seed hw
  have hplaces := p.length_allPlaces_le
  rw [Bool.toNat_true] at hlength
  refine ⟨by omega, fun v hv => ?_⟩
  have hdepth := (hpath v hv).depth_le
  rw [p.length_filter_isPosition_allPlaces, Bool.toNat_true] at hdepth
  omega

theorem effort_le_of_nonneg (hw : seed site api = .ok w)
    (hk : ∀ k ∈ site.ordinals ++ p.ordinals, 0 ≤ k) (h : Search.Loop p limit { queue := [w] } T r) :
    T.length ≤ p.placeCount + site.placeCount ∧
      (site ∈ p.callSites → 0 ≤ w.place.position → T.length ≤ p.placeCount) ∧
      ∀ v ∈ T, v.context.depth ≤ p.positions.length + site.placeCount := by
  rw [List.forall_mem_append] at hk
  obtain ⟨hpath, hlength⟩ :=
    h.onPath (Flow.closed_places hk.2) (seed_onPath _ _ hw (seed_countsFromStart hw hk.1))
  have hpos := placeCount_pos_of_seed hw
  rw [p.length_places, Bool.toNat_false] at hlength
  refine ⟨by omega, fun hsite hposition => ?_, fun v hv => ?_⟩
  · have hstart : w.place ∈ p.places :=
      List.mem_append_left _ (List.mem_flatMap.mpr ⟨site, hsite, seed_mem_places hw hposition⟩)
    rw [← p.length_places, ← List.length_map (f := Work.place)]
    refine h.sweep.1.length_le_of_subset fun y hy => ?_
    obtain ⟨v, hv, rfl⟩ := List.mem_map.mp hy
    rcases (hpath v hv).mem with hin | ⟨hastray, _⟩
    · exact (List.mem_cons.mp hin).elim (fun he => he ▸ hstart) id
    · cases hastray
  · have hdepth := (hpath v hv).depth_le
    rw [p.filter_isPosition_places, Bool.toNat_false] at hdepth
    omega

/-- A search does not go beyond a limit that no work exceeds. -/
theorem category_of_depth_le
    (hdepth : ∀ w T r, seed site api = .ok w → Search.Loop p limit { queue := [w] } T r →
      ∀ v ∈ T, (v.context.depth : Int) ≤ limit)
    {f : Failure} (hf : (resolve p limit site api).result = .error f) :
    f.cause.category ≠ .depthLimit := by
  intro hcategory
  cases hw : seed site api with
  | error g =>
    rw [resolve_eq_error_of_seed hw] at hf
    cases hf
    exact category_of_seed hw hcategory
  | ok w =>
    obtain ⟨T, hT⟩ := exists_run_loop p limit site w
    have hr := (resolve_of_loop hw hT).1
    rw [hf] at hr
    cases hrun : (Search.run p limit (p.searchBound site) { queue := [w] }).result with
    | ok s =>
      rw [hrun] at hr
      cases hr
    | error g =>
      rw [hrun] at hr hT
      cases hr
      obtain ⟨v, hv, hlt⟩ := hT.exists_beyond hcategory
      have hle := hdepth w T _ hw hT v hv
      omega

end Bounds

namespace Spinner

def spin : Method where
  id := "Spin"
  name := "Spin"
  declaringType := "App.Spinner"
  parameters := ["type"]

def kind : LocalVariable where
  id := "kind"
  name := "kind"
  methodId := "Spin"
  initializer := some (.parameterRef { text := "type" } "Spin" 0)

def create : CallSite where
  id := "create"
  location := ⟨"Spinner.cs", 3, 4⟩
  target := ⟨"CreateInstance", "System.Activator", "CreateInstance"⟩
  enclosingMethod := some "Spin"
  arguments := [.localRef { text := "kind" } "kind"]

def again : CallSite where
  id := "again"
  location := ⟨"Spinner.cs", 4, 4⟩
  target := ⟨"Spin", "App.Spinner", "Spin"⟩
  enclosingMethod := some "Spin"
  arguments := [.localRef { text := "kind" } "kind"]

def entry (typeName : String) : CallSite where
  id := "entry"
  location := ⟨"Program.cs", 5, 0⟩
  target := ⟨"Spin", "App.Spinner", "Spin"⟩
  arguments := [.typeOf { text := "typeof" } (.named typeName "App" [])]

def program : Program where
  methods := [spin]
  locals := [kind]
  callSites := [create, again, entry "App.Widget", entry "App.Gadget"]

def first : Work where
  place := ⟨.argument, "create", 0⟩
  site := create
  subject := .value (.localRef { text := "kind" } "kind")
  context := { origin := create, visited := [⟨.argument, "create", 0⟩] }

end Spinner

namespace Turning

def turn : Method where
  id := "Turn"
  declaringType := "App.Turning"
  name := "Turn"
  parameters := ["type"]

def parameter (k : Int) : Expression := .parameterRef { text := "type" } "Turn" k

def call (id : String) (line : ℕ) (k : Int) : CallSite where
  id := id
  location := ⟨"Turning.cs", line, 4⟩
  target := ⟨"Turn", "App.Turning", "Turn"⟩
  enclosingMethod := some "Turn"
  arguments := [parameter k]

/-- One call with one argument, which it passes on to itself. -/
def loop : Program where
  methods := [turn]
  callSites := [call "again" 4 0]

/-- The argument is the last one. -/
def last : Api := { Api.activator with valueArgumentIndex := -1 }

def create : CallSite where
  id := "create"
  location := ⟨"Turning.cs", 3, 4⟩
  target := ⟨"CreateInstance", "System.Activator", "CreateInstance"⟩
  enclosingMethod := some "Turn"
  arguments := [parameter 0]

/-- The same call beside one that passes on the last argument of its caller. -/
def program : Program where
  methods := [turn]
  callSites := [create, call "last" 4 (-1), call "again" 5 0]

end Turning

end TypeOrigins
