import TypeOrigins.Proofs.Origin.Loop

/-! # The frontier of the search

The invariant of the loop. The queue is ordered by depth and spans at most two depths; the places
looked at are settled: their depth was their distance, they do not fail, and each of their edges
leads to a place that is settled too or waits in the queue. Hence every walk from the start ends at
a settled place or passes work that waits at no greater depth, so that the first piece of work in
the queue is the nearest, and an empty queue means that all reachable places are settled.
`resolve_verdict` draws the conclusion for the three ways in which a search can end. -/

namespace TypeOrigins
set_option autoImplicit false

/-! ## The first piece of work -/

theorem seed_eq_ok {site : CallSite} {api : Option Api} {w : Work} (h : seed site api = .ok w) :
    (∃ i, i = (api.map Api.typeArgumentIndex).getD 0 ∧ i < site.typeArguments.length ∧
        w = ⟨⟨.typeArgument, site.id, i⟩, site, site.typeArgumentAt i,
          ({ origin := site } : Context).enter ⟨.typeArgument, site.id, i⟩⟩) ∨
      ∃ i e, at? site.arguments i = some e ∧
        w = ⟨⟨.argument, site.id, i⟩, site, .value e,
          ({ origin := site } : Context).enter ⟨.argument, site.id, i⟩⟩ := by
  unfold seed at h
  dsimp only at h
  split at h
  · split at h
    · cases h
    · next hlt =>
      cases h
      exact Or.inl ⟨_, rfl, by omega, rfl⟩
  · split at h
    · cases h
    · split at h
      · cases h
      · split at h
        · next e he =>
          cases h
          exact Or.inr ⟨_, e, he, rfl⟩
        · cases h

theorem seed_place {site : CallSite} {api : Option Api} {w : Work} (h : seed site api = .ok w) :
    w.place.BelongsTo site ∧ w.site = site ∧ w.context.origin = site ∧ w.context.depth = 0 ∧
      w.context.visited = [w.place] := by
  rcases seed_eq_ok h with ⟨i, _, _, rfl⟩ | ⟨i, e, _, rfl⟩
  · exact ⟨⟨by simp, rfl⟩, rfl, rfl, rfl, rfl⟩
  · exact ⟨⟨by simp, rfl⟩, rfl, rfl, rfl, rfl⟩

theorem seed_subject {p : Program} (hp : (p.callSites.map CallSite.id).Nodup) {site : CallSite}
    (hsite : site ∈ p.callSites) {api : Option Api} {w : Work} (h : seed site api = .ok w) :
    w.subject = p.subjectAt w.place := by
  rcases seed_eq_ok h with ⟨i, _, _, rfl⟩ | ⟨i, e, he, rfl⟩
  · exact (Program.subjectAt_typeArgument hp hsite i).symm
  · rw [Program.subjectAt_argument hp hsite, he]
    rfl

/-! ## The invariant -/

namespace Flow

/-- The steps that an edge takes to a caller. -/
def steps : Option CallSite → ℕ
  | none => 0
  | some _ => 1

variable {p : Program} {origin : CallSite} {start : Place}

theorem steps_le_one (via : Option CallSite) : steps via ≤ 1 := by
  cases via <;> simp [steps]

theorem Walk.step {k : ℕ} {c : CallSite} {x y : Place} {t : Subject} {via : Option CallSite}
    (h : Walk p origin start k c x) (e : Edge p (p.subjectAt x) via y t) :
    Walk p origin start (k + steps via) (via.getD c) y := by
  cases via with
  | none => exact h.within e
  | some d => exact h.caller e

end Flow

/-! ## Found types -/

namespace Search

theorem mem_addFound {found : List TypeReference} {more : Option TypeReference} {r : TypeReference} :
    r ∈ addFound found more ↔ r ∈ found ∨ more = some r := by
  cases more with
  | none => simp [addFound]
  | some q => rw [addFound, mem_append_new, Option.some.injEq, eq_comm (a := q)]

theorem nodup_addFound {found : List TypeReference} (h : found.Nodup) (more : Option TypeReference) :
    (addFound found more).Nodup := by
  cases more with
  | none => exact h
  | some q => exact nodup_append_new h q

end Search

/-! ## Work and places in the flow graph -/

/-- A piece of work whose path is a walk of the flow graph. An argument place on it has an argument
there. -/
structure Work.Located (p : Program) (origin : CallSite) (start : Place) (w : Work) : Prop where
  subject_eq : w.subject = p.subjectAt w.place
  origin_eq : w.context.origin = origin
  walk : Flow.Walk p origin start w.context.depth w.site w.place
  grounded : ∀ y ∈ w.context.visited, y.kind = .argument → p.subjectAt y ≠ .nothing

namespace Work
variable {p : Program} {origin : CallSite} {start : Place} {w : Work} {via : Option CallSite}
  {y : Place} {t : Subject}

@[simp] theorem follow_depth :
    (w.follow via y t).context.depth = w.context.depth + Flow.steps via := by cases via <;> rfl

theorem follow_visited (hy : y ∉ w.context.visited) :
    (w.follow via y t).context.visited = y :: w.context.visited := by
  have h : w.context.visit y = y :: w.context.visited := by
    unfold Context.visit
    rw [if_neg (by simpa using hy)]
  cases via with
  | none => exact h
  | some d => exact h

theorem mem_follow_visited {x : Place} :
    x ∈ (w.follow via y t).context.visited ↔ x = y ∨ x ∈ w.context.visited := by
  cases via with
  | none => exact w.context.mem_visit y x
  | some d => exact w.context.mem_visit y x

theorem Located.follow (hp : (p.callSites.map CallSite.id).Nodup) (hw : w.Located p origin start)
    (e : Flow.Edge p w.subject via y t) : (w.follow via y t).Located p origin start := by
  have hwalk := hw.walk.step (hw.subject_eq ▸ e)
  have ht := (e.subjectAt_eq hp).symm
  have hgrounded : ∀ z ∈ (w.follow via y t).context.visited, z.kind = .argument →
      p.subjectAt z ≠ .nothing := by
    intro z hz hkind
    rcases mem_follow_visited.mp hz with rfl | hz
    · rw [← ht]
      exact e.ne_nothing hkind
    · exact hw.grounded z hz hkind
  cases via with
  | none => exact ⟨ht, hw.origin_eq, hwalk, hgrounded⟩
  | some d => exact ⟨ht, hw.origin_eq, hwalk, hgrounded⟩

/-- The path of such work has no part in its failure. -/
theorem Located.steady (hp : (p.callSites.map CallSite.id).Nodup) (hw : w.Located p origin start) :
    Steady p w.context.contains w.subject := by
  intro note methodId k m _ _ _ d hd hin
  have hsome := hw.grounded _ (w.context.contains_iff.mp hin) rfl
  rw [Program.subjectAt_argument hp (Program.mem_callSites_of_mem_callersOfMethod hd)] at hsome
  cases hat : at? d.arguments k with
  | none =>
    rw [hat] at hsome
    exact absurd rfl hsome
  | some e => rfl

theorem Located.exists_fault (hp : (p.callSites.map CallSite.id).Nodup)
    (hw : w.Located p origin start) {f : Failure} (h : (w.expand p).result = .error f) :
    ∃ d construct cause, Fault p w.site (p.subjectAt w.place) d construct cause ∧
      f = ⟨d, construct, cause, some origin⟩ := by
  rw [← hw.subject_eq, ← hw.origin_eq]
  exact (expand_eq_error_iff_of_steady (hw.steady hp)).mp h

end Work

theorem seed_located {p : Program} (hp : (p.callSites.map CallSite.id).Nodup) {site : CallSite}
    (hsite : site ∈ p.callSites) {api : Option Api} {w : Work} (h : seed site api = .ok w) :
    w.Located p site w.place := by
  obtain ⟨_, hws, horigin, hdepth, hvisited⟩ := seed_place h
  refine ⟨seed_subject hp hsite h, horigin, ?_, ?_⟩
  · rw [hdepth, hws]
    exact .start
  · intro y hy hkind
    rw [hvisited, List.mem_singleton] at hy
    rw [hy, ← seed_subject hp hsite h]
    rw [hy] at hkind
    rcases seed_eq_ok h with ⟨i, _, _, rfl⟩ | ⟨i, e, he, rfl⟩
    · cases hkind
    · exact nofun

/-- A place that has been looked at, at its distance `k`: what its edges lead to is looked at or
waits. -/
structure Settled (p : Program) (limit : Int) (origin : CallSite) (start : Place) (s : Search)
    (y : Place) (k : ℕ) : Prop where
  distance : Flow.Distance p origin start y k
  le_limit : (k : Int) ≤ limit
  not_fails : ¬ Flow.Fails p y
  le_depth : ∀ w ∈ s.queue, k ≤ w.context.depth
  closed : ∀ via z t, Flow.Edge p (p.subjectAt y) via z t →
    z ∈ s.expanded ∨ ∃ w ∈ s.queue, w.place = z ∧ w.context.depth ≤ k + Flow.steps via

/-- What every step of the search keeps. -/
structure Frontier (p : Program) (limit : Int) (origin : CallSite) (start : Place) (s : Search) :
    Prop where
  located : ∀ w ∈ s.queue, w.Located p origin start
  near : ∀ w ∈ s.queue, w.context.depth = 0 ∨ (w.context.depth : Int) ≤ limit + 1
  path : ∀ w ∈ s.queue, ∀ y ∈ w.context.visited, y = w.place ∨ y ∈ s.expanded
  ordered : s.queue.Pairwise fun v w =>
    v.context.depth ≤ w.context.depth ∧ w.context.depth ≤ v.context.depth + 1
  settled : ∀ y ∈ s.expanded, ∃ k, Settled p limit origin start s y k
  begun : start ∈ s.expanded ∨ ∃ w ∈ s.queue, w.place = start ∧ w.context.depth = 0
  mem_found : ∀ r, r ∈ s.found ↔ ∃ y ∈ s.expanded, (p.subjectAt y).Names r
  nodup : s.found.Nodup

namespace Frontier
variable {p : Program} {limit : Int} {origin : CallSite} {start : Place} {s : Search} {w : Work}
  {rest : List Work}

/-- Every walk ends at a settled place or passes waiting work. -/
theorem covers (h : Frontier p limit origin start s) {j : ℕ} {c : CallSite} {z : Place}
    (hz : Flow.Walk p origin start j c z) :
    z ∈ s.expanded ∨ ∃ v ∈ s.queue, v.context.depth ≤ j := by
  have hstep : ∀ {j : ℕ} {c : CallSite} {x y : Place} {t : Subject} {via : Option CallSite},
      Flow.Walk p origin start j c x → Flow.Edge p (p.subjectAt x) via y t →
      (x ∈ s.expanded ∨ ∃ v ∈ s.queue, v.context.depth ≤ j) →
      y ∈ s.expanded ∨ ∃ v ∈ s.queue, v.context.depth ≤ j + Flow.steps via := by
    intro j c x y t via hx e ih
    rcases ih with hin | ⟨v, hv, hd⟩
    · obtain ⟨k, hk⟩ := h.settled x hin
      have hkj := hk.distance.2 j c hx
      rcases hk.closed via y t e with hy | ⟨v, hv, _, hd⟩
      · exact Or.inl hy
      · exact Or.inr ⟨v, hv, by omega⟩
    · exact Or.inr ⟨v, hv, by omega⟩
  induction hz with
  | start =>
    rcases h.begun with hin | ⟨v, hv, _, hd⟩
    · exact Or.inl hin
    · exact Or.inr ⟨v, hv, by omega⟩
  | within hx e ih => exact hstep hx e ih
  | caller hx e ih => exact hstep hx e ih

theorem depth_le_of_head (h : Frontier p limit origin start s) (hq : s.queue = w :: rest) :
    ∀ v ∈ s.queue, w.context.depth ≤ v.context.depth := by
  have ho := h.ordered
  rw [hq, List.pairwise_cons] at ho
  intro v hv
  rcases List.mem_cons.mp (hq ▸ hv) with rfl | hv
  · exact Nat.le_refl _
  · exact (ho.1 v hv).1

/-- A walk that is shorter than the first piece of work is deep ends at a settled place. -/
theorem mem_expanded_of_walk (h : Frontier p limit origin start s) (hq : s.queue = w :: rest) {j : ℕ}
    {c : CallSite} {z : Place} (hz : Flow.Walk p origin start j c z) (hj : j < w.context.depth) :
    z ∈ s.expanded := by
  rcases h.covers hz with hin | ⟨v, hv, hd⟩
  · exact hin
  · have := h.depth_le_of_head hq v hv
    omega

/-- A new place at the head of the queue is met at its distance. -/
theorem distance_of_head (h : Frontier p limit origin start s) (hq : s.queue = w :: rest)
    (hout : w.place ∉ s.expanded) : Flow.Distance p origin start w.place w.context.depth := by
  have hw := h.located w (hq ▸ List.mem_cons_self)
  refine ⟨⟨w.site, hw.walk⟩, fun j c hj => ?_⟩
  by_contra hlt
  exact hout (h.mem_expanded_of_walk hq hj (by omega))

/-- Places that fail are no nearer than the first piece of work. -/
theorem depth_le_of_fails (h : Frontier p limit origin start s) (hq : s.queue = w :: rest) {y : Place}
    {k : ℕ} (hy : Flow.Distance p origin start y k) (hf : Flow.Fails p y) : w.context.depth ≤ k := by
  obtain ⟨c, hc⟩ := hy.1
  by_contra hlt
  obtain ⟨j, hj⟩ := h.settled y (h.mem_expanded_of_walk hq hc (by omega))
  exact hj.not_fails hf

theorem initial {p : Program} (hp : (p.callSites.map CallSite.id).Nodup) (limit : Int)
    {site : CallSite} (hsite : site ∈ p.callSites) {api : Option Api} {w : Work}
    (hw : seed site api = .ok w) : Frontier p limit site w.place { queue := [w] } := by
  obtain ⟨_, _, _, hdepth, hvisited⟩ := seed_place hw
  have honly : ∀ v ∈ [w], v = w := fun v hv => List.mem_singleton.mp hv
  constructor
  case located =>
    intro v hv
    rw [honly v hv]
    exact seed_located hp hsite hw
  case near =>
    intro v hv
    rw [honly v hv]
    exact Or.inl hdepth
  case path =>
    intro v hv y hy
    rw [honly v hv, hvisited, List.mem_singleton] at hy
    rw [honly v hv]
    exact Or.inl hy
  case ordered =>
    exact List.pairwise_singleton _ w
  case settled =>
    intro y hy
    cases hy
  case begun =>
    exact Or.inr ⟨w, List.mem_singleton_self w, rfl, hdepth⟩
  case mem_found =>
    intro r
    constructor
    · intro hr
      cases hr
    · rintro ⟨y, hy, _⟩
      cases hy
  case nodup =>
    exact List.nodup_nil

/-! ## The steps keep the invariant -/

theorem ordered_enqueue {k : ℕ} {successors : List Work}
    (hs : ∀ v ∈ successors, v.context.depth ≤ k + 1)
    (hr : ∀ v ∈ rest, k ≤ v.context.depth ∧ v.context.depth ≤ k + 1)
    (ho : rest.Pairwise fun v w =>
      v.context.depth ≤ w.context.depth ∧ w.context.depth ≤ v.context.depth + 1) :
    (Search.enqueue k successors rest).Pairwise fun v w =>
      v.context.depth ≤ w.context.depth ∧ w.context.depth ≤ v.context.depth + 1 := by
  have hsame : ∀ v ∈ successors.filter (fun w => w.context.depth == k), v.context.depth = k := by
    intro v hv
    simpa using (List.mem_filter.mp hv).2
  have hdeep : ∀ v ∈ successors.filter (fun w => decide (k < w.context.depth)),
      v.context.depth = k + 1 := by
    intro v hv
    have hlt : k < v.context.depth := by simpa using (List.mem_filter.mp hv).2
    have hle := hs v (List.mem_filter.mp hv).1
    omega
  unfold Search.enqueue
  rw [List.pairwise_append, List.pairwise_append]
  refine ⟨⟨?_, ho, ?_⟩, ?_, ?_⟩
  · apply List.pairwise_of_forall_mem_list
    intro v hv v' hv'
    have h₁ := hsame v hv
    have h₂ := hsame v' hv'
    omega
  · intro v hv v' hv'
    have h₁ := hsame v hv
    have h₂ := hr v' hv'
    omega
  · apply List.pairwise_of_forall_mem_list
    intro v hv v' hv'
    have h₁ := hdeep v hv
    have h₂ := hdeep v' hv'
    omega
  · intro v hv v' hv'
    have h₂ := hdeep v' hv'
    rcases List.mem_append.mp hv with hv | hv
    · have h₁ := hsame v hv
      omega
    · have h₁ := hr v hv
      omega

theorem skip (h : Frontier p limit origin start s) (hq : s.queue = w :: rest)
    (hin : w.place ∈ s.expanded) : Frontier p limit origin start { s with queue := rest } := by
  have hrest : ∀ v ∈ rest, v ∈ s.queue := fun v hv => hq ▸ List.mem_cons_of_mem w hv
  have hkeep : ∀ v ∈ s.queue, v.place ∈ s.expanded ∨ v ∈ rest := by
    intro v hv
    rcases List.mem_cons.mp (hq ▸ hv) with rfl | hv
    · exact Or.inl hin
    · exact Or.inr hv
  constructor
  · exact fun v hv => h.located v (hrest v hv)
  · exact fun v hv => h.near v (hrest v hv)
  · exact fun v hv => h.path v (hrest v hv)
  · exact (List.pairwise_cons.mp (hq ▸ h.ordered)).2
  · intro y hy
    obtain ⟨k, hk⟩ := h.settled y hy
    refine ⟨k, hk.distance, hk.le_limit, hk.not_fails, fun v hv => hk.le_depth v (hrest v hv), ?_⟩
    intro via z t e
    rcases hk.closed via z t e with hz | ⟨v, hv, rfl, hd⟩
    · exact Or.inl hz
    · exact (hkeep v hv).imp id fun hv => ⟨v, hv, rfl, hd⟩
  · rcases h.begun with hb | ⟨v, hv, rfl, hd⟩
    · exact Or.inl hb
    · exact (hkeep v hv).imp id fun hv => ⟨v, hv, rfl, hd⟩
  · exact h.mem_found
  · exact h.nodup

theorem mem_grow_queue {x : Expansion} (he : w.Expanded p x) {v : Work} :
    v ∈ (s.grow w rest x).queue ↔ v ∈ rest ∨ ∃ via y t, Flow.Edge p w.subject via y t ∧
      y ∉ w.context.visited ∧ v = w.follow via y t := by
  change v ∈ Search.enqueue w.context.depth x.successors rest ↔ _
  rw [Search.mem_enqueue]
  constructor
  · rintro (hv | ⟨hv, _⟩)
    · exact Or.inl hv
    · exact Or.inr ((he.mem_successors v).mp hv)
  · rintro (hv | hv)
    · exact Or.inl hv
    · refine Or.inr ⟨(he.mem_successors v).mpr hv, ?_⟩
      obtain ⟨via, y, t, _, _, rfl⟩ := hv
      rw [Work.follow_depth]
      omega

theorem settled_head (hp : (p.callSites.map CallSite.id).Nodup) (h : Frontier p limit origin start s) (hq : s.queue = w :: rest)
    (hout : w.place ∉ s.expanded) (hd : (w.context.depth : Int) ≤ limit) {x : Expansion}
    (hx : (w.expand p).result = .ok x) :
    Settled p limit origin start (s.grow w rest x) w.place w.context.depth := by
  have hw := h.located w (hq ▸ List.mem_cons_self)
  have he := Work.expanded_of_ok hx
  refine ⟨h.distance_of_head hq hout, hd, Flow.not_fails_of_ok hw.subject_eq (hw.steady hp) hx, ?_, ?_⟩
  · intro v hv
    rcases (mem_grow_queue he).mp hv with hv | ⟨via, y, t, _, _, rfl⟩
    · exact h.depth_le_of_head hq v (hq ▸ List.mem_cons_of_mem w hv)
    · rw [Work.follow_depth]
      omega
  · intro via z t e
    rw [← hw.subject_eq] at e
    -- an edge back onto the path leads to a place that was looked at before
    by_cases hz : z ∈ w.context.visited
    · left
      rcases h.path w (hq ▸ List.mem_cons_self) z hz with rfl | hz
      · exact List.mem_cons_self
      · exact List.mem_cons_of_mem _ hz
    · right
      refine ⟨w.follow via z t, (mem_grow_queue he).mpr (Or.inr ⟨via, z, t, e, hz, rfl⟩), ?_, ?_⟩
      · exact Work.follow_place
      · rw [Work.follow_depth]

theorem settled_before (hq : s.queue = w :: rest) {x : Expansion} (he : w.Expanded p x) {y : Place}
    {k : ℕ} (hk : Settled p limit origin start s y k) :
    Settled p limit origin start (s.grow w rest x) y k := by
  refine ⟨hk.distance, hk.le_limit, hk.not_fails, ?_, ?_⟩
  · intro v hv
    rcases (mem_grow_queue he).mp hv with hv | ⟨via, z, t, _, _, rfl⟩
    · exact hk.le_depth v (hq ▸ List.mem_cons_of_mem w hv)
    · have := hk.le_depth w (hq ▸ List.mem_cons_self)
      rw [Work.follow_depth]
      omega
  · intro via z t e
    rcases hk.closed via z t e with hz | ⟨v, hv, rfl, hd⟩
    · exact Or.inl (List.mem_cons_of_mem _ hz)
    · rcases List.mem_cons.mp (hq ▸ hv) with rfl | hv
      · exact Or.inl List.mem_cons_self
      · exact Or.inr ⟨v, (mem_grow_queue he).mpr (Or.inl hv), rfl, hd⟩

theorem grow (hp : (p.callSites.map CallSite.id).Nodup) (h : Frontier p limit origin start s)
    (hq : s.queue = w :: rest) (hout : w.place ∉ s.expanded) (hd : (w.context.depth : Int) ≤ limit)
    {x : Expansion} (hx : (w.expand p).result = .ok x) :
    Frontier p limit origin start (s.grow w rest x) := by
  have hmem : w ∈ s.queue := hq ▸ List.mem_cons_self
  have hrest : ∀ v ∈ rest, v ∈ s.queue := fun v hv => hq ▸ List.mem_cons_of_mem w hv
  have hw := h.located w hmem
  have he := Work.expanded_of_ok hx
  constructor
  case located =>
    intro v hv
    rcases (mem_grow_queue he).mp hv with hv | ⟨via, y, t, e, _, rfl⟩
    · exact h.located v (hrest v hv)
    · exact hw.follow hp e
  case near =>
    intro v hv
    rcases (mem_grow_queue he).mp hv with hv | ⟨via, y, t, e, _, rfl⟩
    · exact h.near v (hrest v hv)
    · right
      have hle := Flow.steps_le_one via
      rw [Work.follow_depth]
      omega
  case path =>
    intro v hv y hy
    rcases (mem_grow_queue he).mp hv with hv | ⟨via, z, t, e, _, rfl⟩
    · exact (h.path v (hrest v hv) y hy).imp id (List.mem_cons_of_mem _)
    · rw [Work.follow_place]
      rcases Work.mem_follow_visited.mp hy with rfl | hy
      · exact Or.inl rfl
      · right
        rcases h.path w hmem y hy with rfl | hy
        · exact List.mem_cons_self
        · exact List.mem_cons_of_mem _ hy
  case ordered =>
    have ho := List.pairwise_cons.mp (hq ▸ h.ordered)
    refine ordered_enqueue ?_ ho.1 ho.2
    intro v hv
    obtain ⟨via, y, t, _, _, rfl⟩ := (he.mem_successors v).mp hv
    have hle := Flow.steps_le_one via
    rw [Work.follow_depth]
    omega
  case settled =>
    intro y hy
    rcases List.mem_cons.mp hy with rfl | hy
    · exact ⟨_, h.settled_head hp hq hout hd hx⟩
    · obtain ⟨k, hk⟩ := h.settled y hy
      exact ⟨k, settled_before hq he hk⟩
  case begun =>
    rcases h.begun with hb | ⟨v, hv, rfl, hd⟩
    · exact Or.inl (List.mem_cons_of_mem _ hb)
    · rcases List.mem_cons.mp (hq ▸ hv) with rfl | hv
      · exact Or.inl List.mem_cons_self
      · exact Or.inr ⟨v, (mem_grow_queue he).mpr (Or.inl hv), rfl, hd⟩
  case mem_found =>
    intro r
    change r ∈ Search.addFound s.found x.found ↔ ∃ y ∈ w.place :: s.expanded, (p.subjectAt y).Names r
    rw [Search.mem_addFound, h.mem_found, he.found_iff, hw.subject_eq]
    constructor
    · rintro (⟨y, hy, hr⟩ | hr)
      · exact ⟨y, List.mem_cons_of_mem _ hy, hr⟩
      · exact ⟨w.place, List.mem_cons_self, hr⟩
    · rintro ⟨y, hy, hr⟩
      rcases List.mem_cons.mp hy with rfl | hy
      · exact Or.inr hr
      · exact Or.inl ⟨y, hy, hr⟩
  case nodup =>
    exact Search.nodup_addFound h.nodup x.found

theorem step (hp : (p.callSites.map CallSite.id).Nodup) (s : Search) (w : Work) (rest : List Work)
    (s' : Search) (h : Frontier p limit origin start s) (hq : s.queue = w :: rest)
    (hs : (s.advance p limit w rest).result = .ok s') : Frontier p limit origin start s' := by
  rcases Search.advance_eq_ok.mp hs with ⟨hin, rfl⟩ | ⟨hout, hd, x, hx, rfl⟩
  · exact h.skip hq hin
  · exact h.grow hp hq hout hd hx

end Frontier

/-! ## How a search ends -/

/-- The three ends of a search: all reachable places are within the limit and none fails; or a
nearest place that fails was looked at; or no place within the limit fails and the first beyond it
was met. -/
inductive Verdict (p : Program) (limit : Int) (origin : CallSite) (start : Place) :
    Except Failure (List TypeReference) → Prop
  | complete (refs : List TypeReference) (nodup : refs.Nodup)
      (within : ∀ y, Flow.Reachable p origin start y →
        ¬ Flow.Fails p y ∧ ∃ k, Flow.Distance p origin start y k ∧ (k : Int) ≤ limit)
      (mem_iff : ∀ r, r ∈ refs ↔ ∃ y, Flow.Reachable p origin start y ∧ (p.subjectAt y).Names r) :
      Verdict p limit origin start (.ok refs)
  | failed (w : Work) (f : Failure) (located : w.Located p origin start)
      (distance : Flow.Distance p origin start w.place w.context.depth)
      (le_limit : (w.context.depth : Int) ≤ limit) (error : (w.expand p).result = .error f)
      (nearest : ∀ y k, Flow.Distance p origin start y k → Flow.Fails p y → w.context.depth ≤ k) :
      Verdict p limit origin start (.error f)
  | tooFar (w : Work) (located : w.Located p origin start)
      (distance : Flow.Distance p origin start w.place w.context.depth)
      (beyond : limit < (w.context.depth : Int))
      (near : w.context.depth = 0 ∨ (w.context.depth : Int) ≤ limit + 1)
      (within : ∀ y k, Flow.Distance p origin start y k → (k : Int) ≤ limit → ¬ Flow.Fails p y) :
      Verdict p limit origin start
        (.error ⟨w.site, w.site.target.display, .depthExceeded limit, some origin⟩)

theorem Frontier.verdict_of_empty {p : Program} {limit : Int} {origin : CallSite} {start : Place}
    {s : Search} (h : Frontier p limit origin start s) (hq : s.queue = []) :
    Verdict p limit origin start (.ok s.found) := by
  have hall : ∀ y, Flow.Reachable p origin start y ↔ y ∈ s.expanded := by
    intro y
    constructor
    · rintro ⟨k, c, hw⟩
      rcases h.covers hw with hy | ⟨v, hv, _⟩
      · exact hy
      · rw [hq] at hv
        cases hv
    · intro hy
      obtain ⟨k, hk⟩ := h.settled y hy
      exact hk.distance.reachable
  refine .complete s.found h.nodup ?_ ?_
  · intro y hy
    obtain ⟨k, hk⟩ := h.settled y ((hall y).mp hy)
    exact ⟨hk.not_fails, k, hk.distance, hk.le_limit⟩
  · intro r
    rw [h.mem_found]
    simp only [hall]

theorem Frontier.verdict_of_error {p : Program} {limit : Int} {origin : CallSite} {start : Place}
    {s : Search} {w : Work} {rest : List Work} {f : Failure} (h : Frontier p limit origin start s)
    (hq : s.queue = w :: rest) (hf : (s.advance p limit w rest).result = .error f) :
    Verdict p limit origin start (.error f) := by
  have hmem : w ∈ s.queue := hq ▸ List.mem_cons_self
  have hw := h.located w hmem
  obtain ⟨hout, ⟨hd, rfl⟩ | ⟨hd, hx⟩⟩ := Search.advance_eq_error.mp hf
  · rw [hw.origin_eq]
    refine .tooFar w hw (h.distance_of_head hq hout) hd (h.near w hmem) ?_
    intro y k hy hk hfail
    have := h.depth_le_of_fails hq hy hfail
    omega
  · exact .failed w f hw (h.distance_of_head hq hout) hd hx fun y k hy => h.depth_le_of_fails hq hy

theorem resolve_verdict {p : Program} (hp : (p.callSites.map CallSite.id).Nodup) (limit : Int)
    {site : CallSite} (hsite : site ∈ p.callSites) {api : Option Api} {w : Work}
    (hw : seed site api = .ok w) :
    Verdict p limit site w.place (resolve p limit site api).result := by
  rcases resolve_induction hw (Frontier p limit site w.place) (.initial hp limit hsite hw)
    (Frontier.step hp) with ⟨s, hs, hq, hr⟩ | ⟨s, v, rest, f, hs, hq, hf, hr⟩
  · rw [hr]
    exact hs.verdict_of_empty hq
  · rw [hr]
    exact hs.verdict_of_error hq hf

end TypeOrigins
