import Mathlib.Data.Set.Card
import TypeOrigins.Proofs.Origin.DepthLimit
import TypeOrigins.Proofs.Origin.Trace

/-! # The search and shortest distances

The flow graph as a search sees it: at the place it begins at stands what it was given, whether the
origin is a call of the program or not, and at every other place what stands there in the program. A
place can wait in the queue several times, at several depths. It is looked at when it leaves the
queue for the first time, which is at its distance from the start. So the loop looks at places in
the order of their distance, and what a search says about itself when it has ended is about
distances. -/

namespace TypeOrigins
set_option autoImplicit false

namespace Flow

/-! ## Routes -/

/-- What stands at a place, for a search that begins with `first`. -/
def view (p : Program) (first : Work) (x : Place) : Subject :=
  if x = first.place then first.subject else p.subjectAt x

/-- A place is reached from the first in `k` steps to callers. -/
inductive Route (p : Program) (first : Work) : ℕ → Place → Prop
  | start : Route p first 0 first.place
  | step {k : ℕ} {x y : Place} {via : Option CallSite} {t : Subject} (h : Route p first k x)
      (e : Edge p (view p first x) via y t) : Route p first (k + steps via) y

/-- The least number of steps in which a place is reached. -/
def IsDistance (p : Program) (first : Work) (y : Place) (k : ℕ) : Prop :=
  IsLeast { j | Route p first j y } k

/-- The type stands at a place at distance `k`. -/
def Occurs (p : Program) (first : Work) (q : TypeReference) (k : ℕ) : Prop :=
  ∃ y, IsDistance p first y k ∧ (view p first y).Names q

variable {p : Program} {first : Work} {y : Place} {k j : ℕ}

theorem IsDistance.eq (h : IsDistance p first y k) (h' : IsDistance p first y j) : k = j :=
  IsLeast.unique h h'

theorem isDistance_start (p : Program) (first : Work) : IsDistance p first first.place 0 :=
  ⟨.start, fun _ _ => Nat.zero_le _⟩

theorem view_start (p : Program) (first : Work) : view p first first.place = first.subject :=
  if_pos rfl

theorem view_of_ne (h : y ≠ first.place) : view p first y = p.subjectAt y := if_neg h

/-! ## Origins in the program -/

theorem view_eq_subjectAt (h : first.subject = p.subjectAt first.place) (x : Place) :
    view p first x = p.subjectAt x := by
  by_cases hx : x = first.place
  · rw [hx, view_start, h]
  · exact view_of_ne hx

theorem route_iff_walk (h : first.subject = p.subjectAt first.place) (site : CallSite) :
    Route p first k y ↔ ∃ c, Walk p site first.place k c y := by
  constructor
  · intro hr
    induction hr with
    | start => exact ⟨site, .start⟩
    | step _ e ih =>
      obtain ⟨c, hc⟩ := ih
      rw [view_eq_subjectAt h] at e
      exact ⟨_, hc.step e⟩
  · rintro ⟨c, hc⟩
    induction hc with
    | start => exact .start
    | within _ e ih => exact ih.step (view_eq_subjectAt h _ ▸ e)
    | caller _ e ih => exact ih.step (view_eq_subjectAt h _ ▸ e)

theorem isDistance_iff_distance (h : first.subject = p.subjectAt first.place) (site : CallSite) :
    IsDistance p first y k ↔ Distance p site first.place y k := by
  constructor
  · intro hk
    refine ⟨(route_iff_walk h site).mp hk.1, fun j c hj => ?_⟩
    exact hk.2 ((route_iff_walk h site).mpr ⟨c, hj⟩)
  · intro hk
    refine ⟨(route_iff_walk h site).mpr hk.1, fun j hj => ?_⟩
    obtain ⟨c, hc⟩ := (route_iff_walk h site).mp hj
    exact hk.2 j c hc

end Flow

/-! ## The invariant -/

/-- A piece of work that a search can have put into the queue. -/
structure Work.Routed (p : Program) (w first : Work) : Prop where
  subject_eq : w.subject = Flow.view p first w.place
  route : Flow.Route p first w.context.depth w.place
  rooted : first.place ∈ w.context.visited

theorem Work.Routed.follow {p : Program} (hp : (p.callSites.map CallSite.id).Nodup) {first w : Work}
    (h : w.Routed p first) {via : Option CallSite} {y : Place} {t : Subject}
    (e : Flow.Edge p w.subject via y t) (hy : y ∉ w.context.visited) :
    (w.follow via y t).Routed p first := by
  have hne : y ≠ first.place := fun heq => hy (heq ▸ h.rooted)
  have hroute := h.route.step (h.subject_eq ▸ e)
  constructor
  case subject_eq =>
    rw [Work.follow_place, Flow.view_of_ne hne, e.subjectAt_eq hp]
    cases via <;> rfl
  case route =>
    rw [Work.follow_depth, Work.follow_place]
    exact hroute
  case rooted => exact Work.mem_follow_visited.mpr (Or.inr h.rooted)

theorem seed_routed (p : Program) {site : CallSite} {api : Option Api} {w : Work}
    (h : seed site api = .ok w) : w.Routed p w := by
  obtain ⟨_, _, _, hdepth, hvisited⟩ := seed_place h
  refine ⟨(Flow.view_start p w).symm, ?_, by simp [hvisited]⟩
  rw [hdepth]
  exact .start

namespace Search

/-- The work looked at stood at its distance, and each edge from there leads to a place that was
looked at or waits. -/
structure Charted (p : Program) (first : Work) (T : List Work) (s : Search) : Prop where
  sweep : Sweep T s
  looked : ∀ v ∈ T, v.subject = Flow.view p first v.place ∧
    Flow.IsDistance p first v.place v.context.depth
  queued : ∀ v ∈ s.queue, v.Routed p first
  path : ∀ v ∈ s.queue, ∀ y ∈ v.context.visited, y = v.place ∨ y ∈ s.expanded
  closed : ∀ v ∈ T, ∀ via z t, Flow.Edge p v.subject via z t →
    z ∈ s.expanded ∨ ∃ u ∈ s.queue, u.place = z ∧ u.context.depth ≤ v.context.depth + Flow.steps via
  begun : first.place ∈ s.expanded ∨ ∃ v ∈ s.queue, v.place = first.place ∧ v.context.depth = 0

namespace Charted
variable {p : Program} {limit : Int} {first : Work} {T : List Work} {s : Search} {w : Work}
  {rest : List Work}

theorem initial {site : CallSite} {api : Option Api} (h : seed site api = .ok w) :
    Charted p w [] { queue := [w] } := by
  obtain ⟨_, _, _, hdepth, hvisited⟩ := seed_place h
  constructor
  case sweep => exact .initial w
  case looked => simp
  case queued =>
    intro v hv
    rw [List.mem_singleton.mp hv]
    exact seed_routed p h
  case path =>
    intro v hv y hy
    rw [List.mem_singleton.mp hv, hvisited, List.mem_singleton] at hy
    rw [List.mem_singleton.mp hv]
    exact Or.inl hy
  case closed => simp
  case begun => exact Or.inr ⟨w, List.mem_singleton_self w, rfl, hdepth⟩

/-- Every route ends at a place that was looked at or passes waiting work. -/
theorem covers (h : Charted p first T s) {k : ℕ} {z : Place} (hz : Flow.Route p first k z) :
    z ∈ s.expanded ∨ ∃ v ∈ s.queue, v.context.depth ≤ k := by
  induction hz with
  | start =>
    rcases h.begun with hin | ⟨v, hv, _, hd⟩
    · exact Or.inl hin
    · exact Or.inr ⟨v, hv, by omega⟩
  | @step k x y via t hx e ih =>
    rcases ih with hin | ⟨v, hv, hd⟩
    · obtain ⟨v, hv, rfl⟩ := h.sweep.mem_expanded.mp hin
      obtain ⟨hsubject, hdistance⟩ := h.looked v hv
      have hle : v.context.depth ≤ k := hdistance.2 hx
      rcases h.closed v hv via y t (hsubject ▸ e) with hy | ⟨u, hu, _, hd⟩
      · exact Or.inl hy
      · exact Or.inr ⟨u, hu, by omega⟩
    · exact Or.inr ⟨v, hv, by omega⟩

/-- A new place at the head of the queue is met at its distance. -/
theorem distance_of_head (h : Charted p first T s) (hq : s.queue = w :: rest)
    (hout : w.place ∉ s.expanded) : Flow.IsDistance p first w.place w.context.depth := by
  refine ⟨(h.queued w (hq ▸ List.mem_cons_self)).route, fun j hj => ?_⟩
  have hqueued := List.pairwise_cons.mp (hq ▸ h.sweep.queued)
  rcases h.covers hj with hin | ⟨v, hv, hd⟩
  · exact absurd hin hout
  · rcases List.mem_cons.mp (hq ▸ hv) with rfl | hv
    · exact hd
    · exact (hqueued.1 v hv).1.trans hd

theorem looked_snoc (h : Charted p first T s) (hq : s.queue = w :: rest)
    (hout : w.place ∉ s.expanded) : ∀ v ∈ T ++ [w], v.subject = Flow.view p first v.place ∧
      Flow.IsDistance p first v.place v.context.depth := by
  intro v hv
  rcases List.mem_append.mp hv with hv | hv
  · exact h.looked v hv
  · rw [List.mem_singleton.mp hv]
    exact ⟨(h.queued w (hq ▸ List.mem_cons_self)).subject_eq, h.distance_of_head hq hout⟩

theorem skip (h : Charted p first T s) (hq : s.queue = w :: rest) (hin : w.place ∈ s.expanded) :
    Charted p first T { s with queue := rest } := by
  have hrest : ∀ v ∈ rest, v ∈ s.queue := fun v hv => hq ▸ List.mem_cons_of_mem w hv
  have hkeep : ∀ v ∈ s.queue, v.place ∈ s.expanded ∨ v ∈ rest := by
    intro v hv
    rcases List.mem_cons.mp (hq ▸ hv) with rfl | hv
    · exact Or.inl hin
    · exact Or.inr hv
  constructor
  case sweep => exact h.sweep.skip hq
  case looked => exact h.looked
  case queued => exact fun v hv => h.queued v (hrest v hv)
  case path => exact fun v hv => h.path v (hrest v hv)
  case closed =>
    intro v hv via z t e
    rcases h.closed v hv via z t e with hz | ⟨u, hu, rfl, hd⟩
    · exact Or.inl hz
    · exact (hkeep u hu).imp id fun hu => ⟨u, hu, rfl, hd⟩
  case begun =>
    rcases h.begun with hb | ⟨v, hv, hplace, hd⟩
    · exact Or.inl hb
    · exact (hkeep v hv).imp (fun hv => hplace ▸ hv) fun hv => ⟨v, hv, hplace, hd⟩

theorem look (hp : (p.callSites.map CallSite.id).Nodup) (h : Charted p first T s)
    (hq : s.queue = w :: rest) (hout : w.place ∉ s.expanded) {x : Expansion}
    (hx : (w.expand p).result = .ok x) : Charted p first (T ++ [w]) (s.grow w rest x) := by
  have hmem : w ∈ s.queue := hq ▸ List.mem_cons_self
  have hrest : ∀ v ∈ rest, v ∈ s.queue := fun v hv => hq ▸ List.mem_cons_of_mem w hv
  have he := Work.expanded_of_ok hx
  -- what waited is still waiting, but for the work that is looked at now
  have hkeep : ∀ v ∈ s.queue, v.place ∈ w.place :: s.expanded ∨ v ∈ (s.grow w rest x).queue := by
    intro v hv
    rcases List.mem_cons.mp (hq ▸ hv) with rfl | hv
    · exact Or.inl List.mem_cons_self
    · exact Or.inr ((Frontier.mem_grow_queue he).mpr (Or.inl hv))
  have hpath : ∀ y ∈ w.context.visited, y ∈ w.place :: s.expanded := by
    intro y hy
    rcases h.path w hmem y hy with rfl | hy
    · exact List.mem_cons_self
    · exact List.mem_cons_of_mem _ hy
  constructor
  case sweep => exact h.sweep.look hq hout hx
  case looked => exact h.looked_snoc hq hout
  case queued =>
    intro v hv
    rcases (Frontier.mem_grow_queue he).mp hv with hv | ⟨via, y, t, e, hy, rfl⟩
    · exact h.queued v (hrest v hv)
    · exact (h.queued w hmem).follow hp e hy
  case path =>
    intro v hv y hy
    rcases (Frontier.mem_grow_queue he).mp hv with hv | ⟨via, z, t, _, _, rfl⟩
    · exact (h.path v (hrest v hv) y hy).imp id (List.mem_cons_of_mem _)
    · rw [Work.follow_place]
      exact (Work.mem_follow_visited.mp hy).imp id (hpath y)
  case closed =>
    intro v hv via z t e
    rcases List.mem_append.mp hv with hv | hv
    · rcases h.closed v hv via z t e with hz | ⟨u, hu, rfl, hd⟩
      · exact Or.inl (List.mem_cons_of_mem _ hz)
      · exact (hkeep u hu).imp id fun hu => ⟨u, hu, rfl, hd⟩
    · rw [List.mem_singleton.mp hv] at e ⊢
      -- an edge back onto the path leads to a place that was looked at before
      by_cases hz : z ∈ w.context.visited
      · exact Or.inl (hpath z hz)
      · refine Or.inr ⟨w.follow via z t, ?_, Work.follow_place, ?_⟩
        · exact (Frontier.mem_grow_queue he).mpr (Or.inr ⟨via, z, t, e, hz, rfl⟩)
        · rw [Work.follow_depth]
  case begun =>
    rcases h.begun with hb | ⟨v, hv, hplace, hd⟩
    · exact Or.inl (List.mem_cons_of_mem _ hb)
    · exact (hkeep v hv).imp (fun hv => hplace ▸ hv) fun hv => ⟨v, hv, hplace, hd⟩

/-! ## When the queue is empty -/

theorem mem_expanded_iff (h : Charted p first T s) (hq : s.queue = []) {y : Place} :
    y ∈ s.expanded ↔ ∃ k, Flow.Route p first k y := by
  constructor
  · intro hy
    obtain ⟨v, hv, rfl⟩ := h.sweep.mem_expanded.mp hy
    exact ⟨_, (h.looked v hv).2.1⟩
  · rintro ⟨k, hk⟩
    rcases h.covers hk with hy | ⟨v, hv, _⟩
    · exact hy
    · rw [hq] at hv
      cases hv

/-- The places at distance `k` are those of the work that was looked at in depth `k`. -/
theorem isDistance_iff (h : Charted p first T s) (hq : s.queue = []) {y : Place} {k : ℕ} :
    Flow.IsDistance p first y k ↔ ∃ v ∈ T, v.place = y ∧ v.context.depth = k := by
  constructor
  · intro hk
    obtain ⟨v, hv, rfl⟩ := h.sweep.mem_expanded.mp ((h.mem_expanded_iff hq).mpr ⟨k, hk.1⟩)
    exact ⟨v, hv, rfl, (h.looked v hv).2.eq hk⟩
  · rintro ⟨v, hv, rfl, rfl⟩
    exact (h.looked v hv).2

theorem occurs_iff (h : Charted p first T s) (hq : s.queue = []) {q : TypeReference} {k : ℕ} :
    Flow.Occurs p first q k ↔ ∃ v ∈ T, v.subject.Names q ∧ v.context.depth = k := by
  unfold Flow.Occurs
  constructor
  · rintro ⟨y, hk, hnames⟩
    obtain ⟨v, hv, rfl, rfl⟩ := (h.isDistance_iff hq).mp hk
    exact ⟨v, hv, (h.looked v hv).1 ▸ hnames, rfl⟩
  · rintro ⟨v, hv, hnames, rfl⟩
    exact ⟨v.place, (h.looked v hv).2, (h.looked v hv).1 ▸ hnames⟩

theorem encard_reached (h : Charted p first T s) (hq : s.queue = []) :
    { y | ∃ k, Flow.Route p first k y }.encard = s.expanded.length := by
  have hset : { y | ∃ k, Flow.Route p first k y } = (s.expanded.toFinset : Set Place) := by
    ext y
    rw [List.coe_toFinset]
    exact (h.mem_expanded_iff hq).symm
  have hnodup : s.expanded.Nodup := by
    rw [h.sweep.expanded, List.nodup_reverse]
    exact h.sweep.nodup
  rw [hset, Set.encard_coe_eq_coe_finsetCard, List.toFinset_card_of_nodup hnodup]

theorem isGreatest_deepest (h : Charted p first T s) (hq : s.queue = []) :
    IsGreatest { k | ∃ y, Flow.IsDistance p first y k } s.deepest := by
  constructor
  · rcases h.sweep.deepest with hzero | ⟨v, hv, hdepth⟩
    · rw [hzero]
      exact ⟨first.place, Flow.isDistance_start p first⟩
    · exact ⟨v.place, (h.isDistance_iff hq).mpr ⟨v, hv, rfl, hdepth⟩⟩
  · rintro k ⟨y, hy⟩
    obtain ⟨v, hv, _, rfl⟩ := (h.isDistance_iff hq).mp hy
    exact h.sweep.le_deepest v hv

theorem exists_isLeast_occurs (h : Charted p first T s) (hq : s.queue = []) {q : TypeReference}
    (hfound : q ∈ s.found) : ∃ k, IsLeast { k | Flow.Occurs p first q k } k := by
  classical
  obtain ⟨v, hv, hnames⟩ := (h.sweep.mem_found q).mp hfound
  have hoccurs : ∃ k, Flow.Occurs p first q k := ⟨_, (h.occurs_iff hq).mpr ⟨v, hv, hnames, rfl⟩⟩
  exact ⟨Nat.find hoccurs, Nat.find_spec hoccurs, fun j hj => Nat.find_min' hoccurs hj⟩

theorem found_by_distance (h : Charted p first T s) (hq : s.queue = []) :
    s.found.Pairwise fun q q' => ∀ k k', IsLeast { k | Flow.Occurs p first q k } k →
      IsLeast { k | Flow.Occurs p first q' k } k' → k ≤ k' := by
  refine h.sweep.found.imp ?_
  rintro q q' ⟨v, hv, hnames, hleast⟩ k k' hk hk'
  obtain ⟨v', hv', hnames', rfl⟩ := (h.occurs_iff hq).mp hk'.1
  have hkv : k ≤ v.context.depth := hk.2 ((h.occurs_iff hq).mpr ⟨v, hv, hnames, rfl⟩)
  exact hkv.trans (hleast v' hv' hnames')

end Charted

/-- The work that a loop looks at stands at its distance. -/
theorem Loop.charted {p : Program} (hp : (p.callSites.map CallSite.id).Nodup) {limit : Int}
    {site : CallSite} {api : Option Api} {w : Work} (hw : seed site api = .ok w) {T : List Work}
    {r : Except Failure Search} (h : Loop p limit { queue := [w] } T r) :
    (∀ v ∈ T, Flow.IsDistance p w v.place v.context.depth) ∧
      ∀ s, r = .ok s → s.queue = [] ∧ Charted p w T s := by
  rcases h.induction (Charted p w) (fun _ _ _ _ hT hq hin => hT.skip hq hin)
    (fun _ _ _ _ _ hT hq hout hx => hT.look hp hq hout hx) (.initial hw) with
    ⟨s, rfl, hq, hT⟩ | ⟨T', s, v, rest, f, rfl, rfl, hT, hq, hf⟩
  · refine ⟨fun v hv => (hT.looked v hv).2, fun s' hs' => ?_⟩
    cases hs'
    exact ⟨hq, hT⟩
  · have hlooked := hT.looked_snoc hq (advance_eq_error.mp hf).1
    exact ⟨fun v hv => (hlooked v hv).2, fun s' hs' => by cases hs'⟩

end Search

/-! ## Whole searches -/

/-- A search expands places at their least distance from the start and in the order of that distance.
If it succeeds, it says how many places are reachable and how far the furthest is, and it lists types
in the order of the distances at which they first occur. -/
theorem resolve_by_distance (p : Program) (hp : (p.callSites.map CallSite.id).Nodup) (limit : Int)
    (site : CallSite) (api : Option Api) (w : Work) (hw : seed site api = .ok w) :
    ∃ T r, Search.Loop p limit { queue := [w] } T r ∧
      (resolve p limit site api).result = r.map Search.found ∧
      (∀ v ∈ T, Flow.IsDistance p w v.place v.context.depth) ∧
      T.Pairwise (fun v v' => v.context.depth ≤ v'.context.depth) ∧
      (∀ refs, (resolve p limit site api).result = .ok refs → ∃ depth expanded,
        (resolve p limit site api).events.getLast? =
          some (.resolved site.id site.location.display refs.length depth expanded) ∧
        { y | ∃ k, Flow.Route p w k y }.encard = expanded ∧
        IsGreatest { k | ∃ y, Flow.IsDistance p w y k } depth ∧
        (∀ q ∈ refs, ∃ k, IsLeast { k | Flow.Occurs p w q k } k) ∧
        refs.Pairwise fun q q' => ∀ k k', IsLeast { k | Flow.Occurs p w q k } k →
          IsLeast { k | Flow.Occurs p w q' k } k' → k ≤ k') ∧
      (site ∈ p.callSites →
        ∀ y k, Flow.IsDistance p w y k ↔ Flow.Distance p site w.place y k) := by
  obtain ⟨T, hT⟩ := exists_run_loop p limit site w
  obtain ⟨hdistances, hcharted⟩ := hT.charted hp hw
  obtain ⟨hresult, hevent⟩ := resolve_of_loop hw hT
  refine ⟨T, _, hT, hresult, hdistances, hT.sweep.2.1, fun refs hrefs => ?_, fun hsite y k => ?_⟩
  · cases hr : (Search.run p limit (p.searchBound site) { queue := [w] }).result with
    | error f =>
      rw [hr, hrefs] at hresult
      cases hresult
    | ok s =>
      rw [hr, hrefs] at hresult
      cases hresult
      obtain ⟨hq, hs⟩ := hcharted s hr
      exact ⟨s.deepest, s.expanded.length, hevent s hr, hs.encard_reached hq,
        hs.isGreatest_deepest hq, fun q hfound => hs.exists_isLeast_occurs hq hfound,
        hs.found_by_distance hq⟩
  · exact Flow.isDistance_iff_distance (seed_subject hp hsite hw) site

open Relay in
theorem resolve_by_distance_behind_relay :
    ((program 9).callSites.map CallSite.id).Nodup ∧ ∃ w, seed create none = .ok w ∧
      { y | ∃ k, Flow.Route (program 9) w k y }.encard = 3 ∧
      IsGreatest { k | ∃ y, Flow.IsDistance (program 9) w y k } 2 := by
  have hp : ((program 9).callSites.map CallSite.id).Nodup := by decide +kernel
  have hresult : (resolve (program 9) 64 create none).result = .ok [⟨"App", "App.Widget"⟩] := by
    decide +kernel
  have hlast : (resolve (program 9) 64 create none).events.getLast? =
      some (.resolved "create" "Factory.cs:3:4" 1 2 3) := by decide +kernel
  obtain ⟨w, hw⟩ : ∃ w, seed create none = .ok w := ⟨_, rfl⟩
  obtain ⟨_, _, _, _, _, _, hok, _⟩ := resolve_by_distance (program 9) hp 64 create none w hw
  obtain ⟨depth, expanded, hevent, hcount, hdeepest, _⟩ := hok _ hresult
  rw [hlast] at hevent
  cases hevent
  exact ⟨hp, w, hw, hcount, hdeepest⟩

end TypeOrigins
