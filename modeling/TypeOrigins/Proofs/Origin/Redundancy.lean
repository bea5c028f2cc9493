import TypeOrigins.Proofs.Origin.Alike
import TypeOrigins.Proofs.Origin.Effort

/-! # Paths and the places looked at

At every iteration of the search the path of each piece of work that waits ends at its place, and all
other places on it have been looked at. So a place of the path is never looked at again, whether or
not a step tests the path: a search without the test has more work in its queue, at places that were
looked at before and are skipped, and ends in the same way. A step can tell a place of the path from
another in one case only: an argument counted from the end, of a call with the identifier of another
call that has it. -/

namespace TypeOrigins
set_option autoImplicit false

/-! ## Guards -/

/-- The guard that leaves out nothing. -/
def Guard.never : Guard := fun _ _ => false

/-- A guard that leaves out places of the path alone. -/
def Guard.Sound (g : Guard) : Prop := ∀ c y, g c y = true → y ∈ c.visited

theorem Guard.sound_contains : Guard.Sound Context.contains := fun c _ h => c.contains_iff.mp h

theorem Guard.sound_never : Guard.never.Sound := by
  intro c y h
  cases h

/-! ## What a path says -/

/-- The path from an origin to a piece of work that waits, while the places listed are expanded. -/
structure Work.Tracked (origin : CallSite) (expanded : List Place) (w : Work) : Prop where
  mem : w.place ∈ w.context.visited
  earlier : ∀ y ∈ w.context.visited, y ≠ w.place → y ∈ expanded
  origin_eq : w.context.origin = origin

section Tracked
variable {origin : CallSite} {expanded : List Place} {w : Work}

theorem Work.Tracked.mono (h : w.Tracked origin expanded) (x : Place) :
    w.Tracked origin (x :: expanded) :=
  ⟨h.mem, fun y hy hne => List.mem_cons_of_mem x (h.earlier y hy hne), h.origin_eq⟩

theorem Work.Tracked.mem_of_visited (h : w.Tracked origin expanded) :
    ∀ y ∈ w.context.visited, y ∈ w.place :: expanded := by
  intro y hy
  by_cases hw : y = w.place
  · rw [hw]
    exact List.mem_cons_self
  · exact List.mem_cons_of_mem _ (h.earlier y hy hw)

theorem Work.Tracked.follow (h : w.Tracked origin expanded) (via : Option CallSite) (y : Place)
    (t : Subject) : (w.follow via y t).Tracked origin (w.place :: expanded) := by
  constructor
  case mem =>
    rw [Work.follow_place]
    exact Work.mem_follow_visited.mpr (Or.inl rfl)
  case earlier =>
    intro z hz hne
    rw [Work.follow_place] at hne
    rcases Work.mem_follow_visited.mp hz with hzy | hz
    · exact absurd hzy hne
    · exact h.mem_of_visited z hz
  case origin_eq =>
    cases via with
    | none => exact h.origin_eq
    | some d => exact h.origin_eq

theorem seed_tracked {site : CallSite} {api : Option Api} (h : seed site api = .ok w) :
    w.Tracked site [] := by
  obtain ⟨_, _, horigin, _, hvisited⟩ := seed_place h
  constructor
  case mem => rw [hvisited]; exact List.mem_singleton_self _
  case earlier =>
    intro y hy hne
    rw [hvisited] at hy
    exact absurd (List.mem_singleton.mp hy) hne
  case origin_eq => exact horigin

end Tracked

/-! ## Arguments on a path -/

/-- What stands at a piece of work stands in the program or at the origin, and so do the arguments on
its path. -/
structure Work.Stands (p : Program) (site : CallSite) (w : Work) : Prop where
  subject : w.subject = .nothing ∨ w.subject ∈ site.subjects ∨ w.subject ∈ p.subjects
  arguments : ∀ y ∈ w.context.visited, y.kind = .argument →
    ∃ c ∈ site :: p.callSites, c.id = y.id ∧ (at? c.arguments y.position).isSome

/-- Callers are never asked for a position before the first, or calls of one identifier have equally
many arguments. -/
def Program.CountsAlike (p : Program) (site : CallSite) : Prop :=
  (∀ k ∈ site.ordinals ++ p.ordinals, 0 ≤ k) ∨
    ∀ c ∈ site :: p.callSites, ∀ d ∈ p.callSites, d.id = c.id →
      d.arguments.length = c.arguments.length

section Stands
variable {p : Program} {site : CallSite} {w : Work}

theorem Work.Stands.follow (h : w.Stands p site) {via : Option CallSite} {y : Place} {t : Subject}
    (e : Flow.Edge p w.subject via y t) : (w.follow via y t).Stands p site := by
  constructor
  case subject =>
    rw [Work.follow_subject]
    by_cases ht : t = .nothing
    · exact Or.inl ht
    · exact Or.inr (Or.inr (e.mem_subjects ht))
  case arguments =>
    intro z hz hkind
    rcases Work.mem_follow_visited.mp hz with rfl | hz
    · generalize w.subject = s at e
      cases e with
      | initializer hl hi ha => cases hkind
      | argument hm hc he =>
        exact ⟨_, List.mem_cons_of_mem _ (Program.mem_callSites_of_mem_callersOfMethod hc), rfl,
          Option.isSome_of_eq_some he⟩
      | typeArgument hs ho hm hc ht => cases hkind
    · exact h.arguments z hz hkind

theorem seed_stands (p : Program) {api : Option Api} (h : seed site api = .ok w) :
    w.Stands p site := by
  constructor
  case subject => exact (seed_mem_subjects h).imp_right Or.inl
  case arguments =>
    intro y hy hkind
    obtain ⟨_, _, _, _, hvisited⟩ := seed_place h
    rw [hvisited, List.mem_singleton] at hy
    subst hy
    rcases seed_eq_ok h with ⟨i, _, _, rfl⟩ | ⟨i, e, he, rfl⟩
    · cases hkind
    · exact ⟨site, List.mem_cons_self, rfl, Option.isSome_of_eq_some he⟩

theorem Work.Stands.steady (h : w.Stands p site) (hp : p.CountsAlike site) {g : Guard}
    (hg : g.Sound) : Steady p (g w.context) w.subject := by
  intro note methodId k m hs hk hm d hd hout
  rcases hp with hnonneg | heven
  · -- the ordinal of the subject is one of those that are not negative
    have hin : k ∈ site.ordinals ++ p.ordinals := by
      have hordinal : w.subject.ordinal? = some k := by rw [hs]; rfl
      rw [List.mem_append]
      rcases h.subject with hnothing | hsite | hprogram
      · rw [hs] at hnothing
        cases hnothing
      · exact Or.inl (List.mem_filterMap.mpr ⟨_, hsite, hordinal⟩)
      · exact Or.inr (List.mem_filterMap.mpr ⟨_, hprogram, hordinal⟩)
    have := hnonneg k hin
    omega
  · obtain ⟨c, hc, hid, hsome⟩ := h.arguments _ (hg _ _ hout) rfl
    have hlength := heven c hc d (Program.mem_callSites_of_mem_callersOfMethod hd) hid.symm
    rw [at?_isSome_iff] at hsome ⊢
    rw [hlength]
    exact hsome

end Stands

/-! ## The invariant of the loop -/

namespace Search

/-- All work that waits is tracked. -/
def Tracks (origin : CallSite) (s : Search) : Prop := ∀ w ∈ s.queue, w.Tracked origin s.expanded

/-- What holds at every iteration. The places of a path are distinct, so that those which are
positions are counted once each. -/
structure Invariant (origin : CallSite) (s : Search) : Prop where
  ordered : s.queue.Pairwise fun v w => v.context.depth ≤ w.context.depth
  narrow : ∀ v ∈ s.queue.head?, ∀ w ∈ s.queue.getLast?, w.context.depth ≤ v.context.depth + 1
  tracks : s.Tracks origin
  nodup : ∀ w ∈ s.queue, w.context.visited.Nodup
  positions : ∀ w ∈ s.queue,
    w.context.depth + 1 = (w.context.visited.filter Place.isPosition).length

section Steps
variable {p : Program} {limit : Int} {origin : CallSite} {s s' : Search} {w : Work} {rest : List Work}

theorem Tracks.skip (h : s.Tracks origin) (hq : s.queue = w :: rest) :
    Tracks origin { s with queue := rest } :=
  fun v hv => h v (hq ▸ List.mem_cons_of_mem w hv)

theorem Tracks.grow (h : s.Tracks origin) (hq : s.queue = w :: rest) {x : Expansion}
    (hx : (w.expand p).result = .ok x) : (s.grow w rest x).Tracks origin := by
  intro v hv
  rcases (Frontier.mem_grow_queue (Work.expanded_of_ok hx)).mp hv with hv | ⟨via, y, t, _, _, rfl⟩
  · exact (h.skip hq v hv).mono w.place
  · exact (h w (hq ▸ List.mem_cons_self)).follow via y t

theorem tracks_first {site : CallSite} {api : Option Api} (hw : seed site api = .ok w) :
    Tracks site { queue := [w] } := by
  intro v hv
  rw [List.mem_singleton.mp hv]
  exact seed_tracked hw

/-- All work that waits stands in the program or at the origin. -/
def AllStand (p : Program) (site : CallSite) (s : Search) : Prop := ∀ w ∈ s.queue, w.Stands p site

theorem AllStand.skip (h : s.AllStand p origin) (hq : s.queue = w :: rest) :
    AllStand p origin { s with queue := rest } :=
  fun v hv => h v (hq ▸ List.mem_cons_of_mem w hv)

theorem AllStand.grow (h : s.AllStand p origin) (hq : s.queue = w :: rest) {x : Expansion}
    (hx : (w.expand p).result = .ok x) : (s.grow w rest x).AllStand p origin := by
  intro v hv
  rcases (Frontier.mem_grow_queue (Work.expanded_of_ok hx)).mp hv with hv | ⟨via, y, t, e, _, rfl⟩
  · exact h.skip hq v hv
  · exact (h w (hq ▸ List.mem_cons_self)).follow e

theorem allStand_first (p : Program) {site : CallSite} {api : Option Api}
    (hw : seed site api = .ok w) : AllStand p site { queue := [w] } := by
  intro v hv
  rw [List.mem_singleton.mp hv]
  exact seed_stands p hw

theorem le_of_head?_of_getLast? {queue : List Work} (h : queue.Pairwise fun v w =>
      v.context.depth ≤ w.context.depth ∧ w.context.depth ≤ v.context.depth + 1) :
    ∀ v ∈ queue.head?, ∀ w ∈ queue.getLast?, w.context.depth ≤ v.context.depth + 1 := by
  intro v hv w hw
  cases queue with
  | nil => cases hv
  | cons u rest =>
    cases hv
    rcases List.mem_cons.mp (List.mem_of_getLast? hw) with rfl | hin
    · omega
    · exact ((List.pairwise_cons.mp h).1 w hin).2

theorem invariant_of_run {site : CallSite} {api : Option Api} (hw : seed site api = .ok w) (n : ℕ)
    (h : (run p limit n { queue := [w] }).result = .ok s) : s.Invariant site := by
  -- the work looked at so far is the ghost that orders the queue and the paths
  let I (s : Search) : Prop :=
    s.Tracks site ∧ ∃ T, Sweep T s ∧ OnPaths (fun _ => True) p.allPlaces true w.place T s
  have hfirst : I { queue := [w] } :=
    ⟨tracks_first hw, [], .initial w, .initial (seed_onPath _ _ hw trivial)⟩
  have hstep : ∀ s v rest s', I s → s.queue = v :: rest →
      (s.advance p limit v rest).result = .ok s' → I s' := by
    rintro s v rest s' ⟨htracks, T, hsweep, hpaths⟩ hq hs
    rcases advance_eq_ok.mp hs with ⟨_, rfl⟩ | ⟨hout, _, x, hx, rfl⟩
    · exact ⟨htracks.skip hq, T, hsweep.skip hq, hpaths.skip hq⟩
    · exact ⟨htracks.grow hq hx, T ++ [v], hsweep.look hq hout hx,
        hpaths.look (Flow.closed_allPlaces p) hq hx⟩
  obtain ⟨htracks, T, hsweep, hpaths⟩ := (run_induction p limit I hstep n hfirst).1 s h
  constructor
  case ordered => exact hsweep.queued.imp And.left
  case narrow => exact le_of_head?_of_getLast? hsweep.queued
  case tracks => exact htracks
  case nodup => exact fun v hv => (hpaths.2 v hv).nodup
  case positions => exact fun v hv => (hpaths.2 v hv).positions.symm

end Steps

/-! ## Work at places looked at before -/

/-- The work at places that are not among those seen. -/
def unseen (seen : List Place) (works : List Work) : List Work :=
  works.filter fun v => !seen.contains v.place

/-- Where the whole path has been seen, it makes no difference what a guard leaves out of it. -/
theorem unseen_filter {g : Guard} (hg : g.Sound) {c : Context} {seen : List Place}
    (hc : ∀ y ∈ c.visited, y ∈ seen) (works : List Work) :
    unseen seen (works.filter fun v => !g c v.place) = unseen seen works := by
  unfold unseen
  rw [List.filter_filter]
  apply List.filter_congr
  intro v _
  by_cases hv : g c v.place = true
  · have hseen : seen.contains v.place = true :=
      List.contains_iff_mem.mpr (hc _ (hg c v.place hv))
    simp only [hseen, Bool.not_true, Bool.false_and]
  · simp [hv]

theorem unseen_cons_of_mem {seen : List Place} {w : Work} (h : w.place ∈ seen) (works : List Work) :
    unseen seen (w :: works) = unseen seen works :=
  List.filter_cons_of_neg (by simpa using h)

theorem unseen_cons_of_not_mem {seen : List Place} {w : Work} (h : w.place ∉ seen)
    (works : List Work) : unseen seen (w :: works) = w :: unseen seen works :=
  List.filter_cons_of_pos (by simpa using h)

theorem unseen_cons_congr {seen : List Place} {works works' : List Work} (x : Place)
    (h : unseen seen works' = unseen seen works) :
    unseen (x :: seen) works' = unseen (x :: seen) works := by
  have hsplit : ∀ l, unseen (x :: seen) l = (unseen seen l).filter fun v => !(v.place == x) := by
    intro l
    unfold unseen
    rw [List.filter_filter]
    congr 1
    funext v
    rw [List.contains_cons, Bool.not_or]
  rw [hsplit, hsplit, h]

theorem unseen_enqueue (seen : List Place) (depth : ℕ) (successors queue : List Work) :
    unseen seen (enqueue depth successors queue) =
      enqueue depth (unseen seen successors) (unseen seen queue) := by
  unfold unseen enqueue
  rw [List.filter_append, List.filter_append]
  congr 1
  · congr 1
    rw [List.filter_filter, List.filter_filter]
    congr 1
    funext v
    exact Bool.and_comm _ _
  · rw [List.filter_filter, List.filter_filter]
    congr 1
    funext v
    exact Bool.and_comm _ _

/-! ## Two searches -/

/-- The searches have looked at the same places and found the same types. -/
structure EndsAs (s s' : Search) : Prop where
  expanded : s'.expanded = s.expanded
  found : s'.found = s.found
  deepest : s'.deepest = s.deepest

/-- The searches differ in work at places that were looked at before. -/
structure Paired (s s' : Search) : Prop extends EndsAs s s' where
  waiting : unseen s.expanded s'.queue = unseen s.expanded s.queue

theorem Paired.skip {s s' : Search} {w : Work} {rest : List Work} (h : Paired s s')
    (hq : s.queue = w :: rest) (hin : w.place ∈ s.expanded) : Paired { s with queue := rest } s' := by
  refine ⟨⟨h.expanded, h.found, h.deepest⟩, ?_⟩
  rw [h.waiting, hq]
  exact unseen_cons_of_mem hin rest

theorem EndsAs.grow {s s' : Search} {w : Work} {rest rest' : List Work} {x x' : Expansion}
    (h : EndsAs s s') (hrest : unseen s.expanded rest' = unseen s.expanded rest)
    (hfound : x'.found = x.found) (hsuccessors : unseen (w.place :: s.expanded) x'.successors =
      unseen (w.place :: s.expanded) x.successors) :
    Paired (s.grow w rest x) (s'.grow w rest' x') := by
  refine ⟨⟨congrArg (w.place :: ·) h.expanded, ?_, congrArg (max · w.context.depth) h.deepest⟩, ?_⟩
  · show addFound s'.found x'.found = addFound s.found x.found
    rw [h.found, hfound]
  · show unseen (w.place :: s.expanded) (enqueue _ x'.successors rest') =
      unseen (w.place :: s.expanded) (enqueue _ x.successors rest)
    rw [unseen_enqueue, unseen_enqueue, hsuccessors, unseen_cons_congr w.place hrest]

section Steps
variable {g : Guard} {p : Program} {site : CallSite} {w : Work}

/-- The result is a failure at a position before the first. -/
def OutOfRange {α : Type} (r : Except Failure α) : Prop :=
  ∃ f, r = .error f ∧ f.cause = .positionOutOfRange

theorem expandUnder_of_error (hg : g.Sound) (hw : w.Stands p site) {f : Failure}
    (h : (w.expand p).result = .error f) : (w.expandUnder g p).result = .error f ∨
      ¬ p.CountsAlike site ∧ OutOfRange (w.expandUnder g p).result := by
  obtain ⟨d, construct, cause, hfault, rfl⟩ := Work.expand_eq_error_iff.mp h
  by_cases hp : p.CountsAlike site
  · exact Or.inl (Work.expandUnder_of_fault
      (hfault.change (hw.steady hp Guard.sound_contains) (hw.steady hp hg)))
  · rcases hfault.change_or fun y hy => w.context.contains_iff.mpr (hg _ y hy) with
      hsame | ⟨d', construct', hfault'⟩
    · exact Or.inl (Work.expandUnder_of_fault hsame)
    · exact Or.inr ⟨hp, _, Work.expandUnder_of_fault hfault', rfl⟩

theorem expandUnder_of_ok (hg : g.Sound) (hw : w.Stands p site) {seen : List Place}
    (hseen : ∀ y ∈ w.context.visited, y ∈ seen) {x : Expansion} (h : (w.expand p).result = .ok x) :
    (∃ x', (w.expandUnder g p).result = .ok x' ∧ x'.found = x.found ∧
      unseen seen x'.successors = unseen seen x.successors) ∨
      ¬ p.CountsAlike site ∧ OutOfRange (w.expandUnder g p).result := by
  have he := Work.expanded_of_ok h
  rcases Work.outcomeUnder g p w with ⟨d, construct, cause, hfault⟩ | ⟨x', hx', he'⟩
  · have hno : ¬ FaultUnder p w.context.contains w.site w.subject d construct cause := by
      intro hfault'
      rw [Work.expand_eq_error_iff.mpr ⟨d, construct, cause, hfault', rfl⟩] at h
      cases h
    refine Or.inr ⟨fun hp => hno ?_, ?_⟩
    · exact hfault.change (hw.steady hp hg) (hw.steady hp Guard.sound_contains)
    · rcases hfault.out_cases with hall | ⟨rfl, _⟩
      · exact absurd (hall _) hno
      · exact ⟨_, Work.expandUnder_of_fault hfault, rfl⟩
  · refine Or.inl ⟨x', hx', Option.ext fun r => (he'.found_iff r).trans (he.found_iff r).symm, ?_⟩
    rw [he'.successors_eq, he.successors_eq, unseen_filter hg hseen,
      unseen_filter Guard.sound_contains hseen]

end Steps

section Under
variable {g : Guard} {p : Program} {limit : Int} {s s' : Search} {w : Work} {rest : List Work}
  {fuel : ℕ} {places : List Place}

theorem runUnder_of_ok (hq : s.queue = w :: rest)
    (h : (s.advanceUnder g p limit w rest).result = .ok s') :
    (runUnder g p limit (fuel + 1) s).result = (runUnder g p limit fuel s').result := by
  rw [runUnder_cons hq]
  exact Logged.result_bind_of_ok _ h

theorem runUnder_of_error (hq : s.queue = w :: rest) {f : Failure}
    (h : (s.advanceUnder g p limit w rest).result = .error f) :
    (runUnder g p limit (fuel + 1) s).result = .error f := by
  rw [runUnder_cons hq]
  exact Logged.result_bind_of_error _ h

/-- A run skips the work at places looked at before, up to the first at a new one. -/
theorem exists_runUnder_skipped (g : Guard) (limit : Int) (queue : List Work)
    (hf : load p places { s with queue := queue } ≤ fuel) :
    ∃ fuel' queue', queue' <:+ queue ∧ load p places { s with queue := queue' } ≤ fuel' ∧
      unseen s.expanded queue' = unseen s.expanded queue ∧
      (∀ w ∈ queue'.head?, w.place ∉ s.expanded) ∧
      (runUnder g p limit fuel { s with queue := queue }).result =
        (runUnder g p limit fuel' { s with queue := queue' }).result := by
  induction queue generalizing fuel with
  | nil => exact ⟨fuel, [], List.suffix_rfl, hf, rfl, by simp, rfl⟩
  | cons w rest ih =>
    by_cases hin : w.place ∈ s.expanded
    · have hlt : load p places { s with queue := rest } < load p places { s with queue := w :: rest } :=
        load_skip_lt (s := { s with queue := w :: rest }) places rfl
      obtain ⟨n, rfl⟩ : ∃ n, fuel = n + 1 := Nat.exists_eq_succ_of_ne_zero (by omega)
      have hn : load p places { s with queue := rest } ≤ n := by omega
      obtain ⟨fuel', queue', hsuffix, hload, hunseen, hhead, hrun⟩ := ih hn
      refine ⟨fuel', queue', hsuffix.trans (List.suffix_cons w rest), hload, ?_, hhead, ?_⟩
      · rw [hunseen, unseen_cons_of_mem hin]
      · rw [← hrun]
        exact runUnder_of_ok rfl (advanceUnder_eq_ok.mpr (Or.inl ⟨hin, rfl⟩))
    · refine ⟨fuel, w :: rest, List.suffix_rfl, hf, rfl, ?_, rfl⟩
      intro v hv
      cases hv
      exact hin

/-- A run comes to the first work at a new place, which is the same in the two searches. -/
theorem exists_runUnder_head (hs : Paired s s') (hq : s.queue = w :: rest)
    (hout : w.place ∉ s.expanded) (hin : Within places s') (hf : load p places s' ≤ fuel) :
    ∃ fuel' u rest', u.queue = w :: rest' ∧ EndsAs s u ∧
      unseen s.expanded rest' = unseen s.expanded rest ∧ Within places u ∧
      load p places u ≤ fuel' + 1 ∧
      (runUnder g p limit fuel s').result = (runUnder g p limit (fuel' + 1) u).result := by
  obtain ⟨fuel', queue', hsuffix, hload, hunseen, hhead, hrun⟩ :=
    exists_runUnder_skipped g limit s'.queue hf
  rw [hs.expanded, hs.waiting, hq, unseen_cons_of_not_mem hout] at hunseen
  rw [hs.expanded] at hhead
  cases queue' with
  | nil => cases hunseen
  | cons v rest' =>
    rw [unseen_cons_of_not_mem (hhead v rfl)] at hunseen
    obtain ⟨rfl, hrest⟩ := List.cons.inj hunseen
    have hpos : 0 < fuel' := by
      unfold load at hload
      rw [List.length_cons] at hload
      omega
    obtain ⟨fuel', rfl⟩ : ∃ n, fuel' = n + 1 := Nat.exists_eq_succ_of_ne_zero (by omega)
    exact ⟨fuel', { s' with queue := v :: rest' }, rest', rfl, ⟨hs.expanded, hs.found, hs.deepest⟩,
      hrest, fun u hu => hin u (hsuffix.subset hu), hload, hrun⟩

theorem runUnder_of_unseen_nil (hl : unseen s.expanded s.queue = []) (hf : load p places s ≤ fuel) :
    (runUnder g p limit fuel s).result = .ok { s with queue := [] } := by
  obtain ⟨fuel', queue', _, _, hunseen, hhead, hrun⟩ :=
    exists_runUnder_skipped g limit s.queue hf
  rw [hl] at hunseen
  cases queue' with
  | nil =>
    have hend : runUnder g p limit fuel' { s with queue := [] } = .ok { s with queue := [] } :=
      runUnder_nil rfl
    rw [hend] at hrun
    exact hrun
  | cons v rest =>
    rw [unseen_cons_of_not_mem (hhead v rfl)] at hunseen
    cases hunseen

/-- Under a sound guard the search goes through the loop, with more or less to skip, until a caller
lacks an argument counted from the end. -/
theorem Loop.agree_runUnder (hg : g.Sound) (hplaces : ∀ y ∈ p.allPlaces, y ∈ places)
    {origin : CallSite} {T : List Work} {r : Except Failure Search}
    (h : Loop p limit s T r) (htracks : s.Tracks origin) (hstands : s.AllStand p origin)
    (hs : Paired s s') (hin : Within places s') (hf : load p places s' ≤ fuel) :
    Agree Eq EndsAs r (runUnder g p limit fuel s').result ∨
      ¬ p.CountsAlike origin ∧ OutOfRange (runUnder g p limit fuel s').result := by
  induction h generalizing s' fuel with
  | @done s hq =>
    have hnil : unseen s'.expanded s'.queue = [] := by
      rw [hs.expanded, hs.waiting, hq]
      rfl
    rw [runUnder_of_unseen_nil hnil hf]
    exact Or.inl (.ok ⟨hs.expanded, hs.found, hs.deepest⟩)
  | @skip s w rest T r hq hold _ ih =>
    exact ih (htracks.skip hq) (hstands.skip hq) (hs.skip hq hold) hin hf
  | @look s s₁ w rest T r hq hout hadvance _ ih =>
    obtain ⟨hold, _⟩ | ⟨_, hdepth, x, hx, rfl⟩ := advance_eq_ok.mp hadvance
    · exact absurd hold hout
    obtain ⟨fuel', u, rest', hu, hends, hrest, hwithin, hload, hrun⟩ :=
      exists_runUnder_head hs hq hout hin hf
    have hw := htracks w (hq ▸ List.mem_cons_self)
    rw [hrun]
    rcases expandUnder_of_ok hg (hstands w (hq ▸ List.mem_cons_self)) hw.mem_of_visited hx with
      ⟨x', hx', hfound, hsuccessors⟩ | ⟨hp, f, hf', hcause⟩
    · have hadvance' : (u.advanceUnder g p limit w rest').result = .ok (u.grow w rest' x') :=
        advanceUnder_eq_ok.mpr (Or.inr ⟨hends.expanded ▸ hout, hdepth, x', hx', rfl⟩)
      obtain ⟨hwithin', hlt⟩ := advanceUnder_load hplaces hwithin hu hadvance'
      rw [runUnder_of_ok hu hadvance']
      exact ih (htracks.grow hq hx) (hstands.grow hq hx) (hends.grow hrest hfound hsuccessors) hwithin'
        (by omega)
    · have hadvance' : (u.advanceUnder g p limit w rest').result = .error f :=
        advanceUnder_eq_error.mpr ⟨hends.expanded ▸ hout, Or.inr ⟨hdepth, hf'⟩⟩
      exact Or.inr ⟨hp, f, runUnder_of_error hu hadvance', hcause⟩
  | @fail s w rest f hq hadvance =>
    obtain ⟨hout, hcause⟩ := advance_eq_error.mp hadvance
    obtain ⟨fuel', u, rest', hu, hends, _, _, _, hrun⟩ := exists_runUnder_head hs hq hout hin hf
    have hout' : w.place ∉ u.expanded := hends.expanded ▸ hout
    rw [hrun]
    rcases hcause with hlimit | ⟨hle, hx⟩
    · rw [runUnder_of_error hu (advanceUnder_eq_error.mpr ⟨hout', Or.inl hlimit⟩)]
      exact Or.inl (.error rfl)
    · rcases expandUnder_of_error hg (hstands w (hq ▸ List.mem_cons_self)) hx with
        hsame | ⟨hp, f', hf', hcause⟩
      · rw [runUnder_of_error hu (advanceUnder_eq_error.mpr ⟨hout', Or.inr ⟨hle, hsame⟩⟩)]
        exact Or.inl (.error rfl)
      · have hadvance' : (u.advanceUnder g p limit w rest').result = .error f' :=
          advanceUnder_eq_error.mpr ⟨hout', Or.inr ⟨hle, hf'⟩⟩
        exact Or.inr ⟨hp, f', runUnder_of_error hu hadvance', hcause⟩

theorem agree_runUnder_of_seed (hg : g.Sound) (p : Program) (limit : Int) {site : CallSite}
    {api : Option Api} (hw : seed site api = .ok w) :
    Agree Eq EndsAs (run p limit (p.searchBound site) { queue := [w] }).result
        (runUnder g p limit (p.searchBound site) { queue := [w] }).result ∨
      ¬ p.CountsAlike site ∧
        OutOfRange (runUnder g p limit (p.searchBound site) { queue := [w] }).result := by
  obtain ⟨T, hT⟩ := exists_run_loop p limit site w
  exact hT.agree_runUnder hg (fun y hy => List.mem_cons_of_mem w.place hy) (tracks_first hw)
    (allStand_first p hw) ⟨⟨rfl, rfl, rfl⟩, rfl⟩ (within_first p w) (load_first_le p site w)

end Under

end Search

/-! ## Whole searches -/

/-- The searches under all sound guards have one result, and one last event if they succeed, but for
those that meet a position before the first. -/
theorem resolveUnder_of_sound {g : Guard} (hg : g.Sound) (p : Program) (limit : Int)
    (site : CallSite) (api : Option Api) :
    ((resolveUnder g p limit site api).result = (resolve p limit site api).result ∧
      ∀ types, (resolve p limit site api).result = .ok types → ∃ depth expanded,
        (resolve p limit site api).events.getLast? =
            some (.resolved site.id site.location.display types.length depth expanded) ∧
          (resolveUnder g p limit site api).events.getLast? =
            some (.resolved site.id site.location.display types.length depth expanded)) ∨
      ¬ p.CountsAlike site ∧ ∃ f, (resolveUnder g p limit site api).result = .error f ∧
        f.cause = .positionOutOfRange := by
  cases hw : seed site api with
  | error f =>
    rw [resolveUnder_eq_error_of_seed hw, resolve_eq_error_of_seed hw]
    refine Or.inl ⟨rfl, fun types h => ?_⟩
    cases h
  | ok w =>
    obtain ⟨T, hT⟩ := exists_run_loop p limit site w
    obtain ⟨hresult, hlast⟩ := resolve_of_loop hw hT
    have hagree := Search.agree_runUnder_of_seed hg p limit hw
    generalize (Search.run p limit (p.searchBound site) { queue := [w] }).result = r at *
    generalize hunder : (Search.runUnder g p limit (p.searchBound site) { queue := [w] }).result = r' at hagree
    rw [resolveUnder_of_seed hw, hresult]
    rcases hagree with hagree | ⟨hp, f, rfl, hcause⟩
    · refine Or.inl ?_
      cases hagree with
      | error hf =>
        rw [Logged.result_bind_of_error _ hunder, hf]
        refine ⟨rfl, fun types h => ?_⟩
        cases h
      | @ok s s' hends =>
        rw [Logged.result_bind_of_ok _ hunder, Logged.events_bind_of_ok _ hunder]
        refine ⟨?_, fun types h => ?_⟩
        · rw [Logged.result_say_bind, hends.found]
          rfl
        · cases h
          refine ⟨s.deepest, s.expanded.length, hlast s rfl, ?_⟩
          rw [← hends.found, ← hends.deepest, ← hends.expanded]
          exact List.getLast?_concat
    · exact Or.inr ⟨hp, f, Logged.result_bind_of_error _ hunder, hcause⟩

namespace Namesake

def method (id : String) : Method where
  id := id
  declaringType := "App"
  name := id
  parameters := ["first", "second"]

def call (method : String) (enclosing : Option String) (arguments : List Expression) : CallSite where
  id := "call"
  location := ⟨"App.cs", 1, 0⟩
  target := ⟨method, "App", method⟩
  enclosingMethod := enclosing
  arguments := arguments

def parameter (method : String) : Expression := .parameterRef { text := "first" } method (-2)

def create : CallSite :=
  { call "CreateInstance" (some "Inner") [parameter "Inner"] with id := "create" }

def program : Program where
  methods := [method "Inner", method "Outer"]
  callSites := [create, call "Inner" (some "Outer") [parameter "Outer", parameter "Outer"],
    call "Outer" none [parameter "Outer"]]

end Namesake

open Namesake in
example : (resolve program 5 create none).result = .ok [] ∧
    ((resolveUnder Guard.never program 5 create none).result.mapError Failure.cause) =
      .error .positionOutOfRange := by decide +kernel

end TypeOrigins
