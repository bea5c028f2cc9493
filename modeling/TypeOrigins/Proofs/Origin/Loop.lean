import TypeOrigins.Proofs.Origin.Expansion

/-! # The loop of the search

What one step of the search does, what a whole run keeps, and why it ends, under any guard. Work at a
place with something there is at the place the search began at or at a position of the program,
counted from the start or from the end, so the places that are left bound the steps, and the fuel of
`resolve` never runs out: `resolve_induction` says that a property kept by each step holds when the
queue is empty, or when the step that fails is taken. -/

namespace TypeOrigins
set_option autoImplicit false

/-! ## The places of a program -/

/-- The positions of a call, counted from the start. -/
def CallSite.places (c : CallSite) : List Place :=
  (List.range c.typeArguments.length).map (fun i => ⟨.typeArgument, c.id, i⟩) ++
    (List.range c.arguments.length).map (fun i => ⟨.argument, c.id, i⟩)

/-- The positions of all calls. -/
def Program.positions (p : Program) : List Place := p.callSites.flatMap CallSite.places

/-- The positions of all calls, and the locals. -/
def Program.places (p : Program) : List Place :=
  p.positions ++ p.locals.map fun l => ⟨.localVariable, l.id, 0⟩

/-- The place as it is counted from the other side: the first becomes the last. -/
def Place.mirror (y : Place) : Place := { y with position := -y.position - 1 }

/-- The positions of all calls, counted from either side, and the locals. -/
def Program.allPlaces (p : Program) : List Place := p.places ++ p.positions.map Place.mirror

theorem CallSite.length_places (c : CallSite) : c.places.length = c.placeCount := by
  unfold places placeCount
  rw [List.length_append, List.length_map, List.length_map, List.length_range, List.length_range]

theorem Program.length_places (p : Program) : p.places.length = p.placeCount := by
  unfold places positions placeCount
  rw [List.length_append, List.length_map]
  induction p.callSites with
  | nil => exact Nat.zero_add _
  | cons c rest ih =>
    rw [List.flatMap_cons, List.foldr_cons, List.length_append, ← ih, c.length_places]
    omega

theorem Program.length_allPlaces_le (p : Program) : p.allPlaces.length ≤ 2 * p.placeCount := by
  have hplaces := p.length_places
  unfold allPlaces
  rw [List.length_append, List.length_map, hplaces]
  unfold places at hplaces
  rw [List.length_append] at hplaces
  omega

theorem CallSite.mem_places_typeArgument {c : CallSite} {i : Int} (hi : 0 ≤ i)
    (hlt : i < c.typeArguments.length) : ⟨.typeArgument, c.id, i⟩ ∈ c.places := by
  refine List.mem_append_left _ (List.mem_map.mpr ⟨i.toNat, List.mem_range.mpr (by omega), ?_⟩)
  rw [Int.toNat_of_nonneg hi]

theorem CallSite.mem_places_argument {c : CallSite} {i : Int} (hi : 0 ≤ i)
    (hlt : i < c.arguments.length) : ⟨.argument, c.id, i⟩ ∈ c.places := by
  refine List.mem_append_right _ (List.mem_map.mpr ⟨i.toNat, List.mem_range.mpr (by omega), ?_⟩)
  rw [Int.toNat_of_nonneg hi]

/-- A place is found in the program, or its mirror image is. -/
theorem Program.mem_allPlaces_of_position {p : Program} {c : CallSite} (hc : c ∈ p.callSites)
    {kind : PlaceKind} {i : Int} {n : ℕ}
    (hplaces : ∀ j : Int, 0 ≤ j → j < n → ⟨kind, c.id, j⟩ ∈ c.places)
    (hlt : i < n) (hle : 0 ≤ i + n) : ⟨kind, c.id, i⟩ ∈ p.allPlaces := by
  by_cases hi : 0 ≤ i
  · refine List.mem_append_left _ (List.mem_append_left _ ?_)
    exact List.mem_flatMap.mpr ⟨c, hc, hplaces i hi hlt⟩
  · refine List.mem_append_right _ (List.mem_map.mpr ⟨⟨kind, c.id, -i - 1⟩, ?_, ?_⟩)
    · exact List.mem_flatMap.mpr ⟨c, hc, hplaces _ (by omega) (by omega)⟩
    · have hi : -(-i - 1) - 1 = i := by omega
      rw [Place.mirror, hi]

namespace Flow
variable {p : Program} {s s' : Subject} {via : Option CallSite} {y : Place}

/-- An edge to something ends at a place of the program. -/
theorem Edge.mem_allPlaces (h : Edge p s via y s') (hs' : s' ≠ .nothing) : y ∈ p.allPlaces := by
  cases h with
  | initializer hl hi ha =>
    refine List.mem_append_left _ (List.mem_append_right _ (List.mem_map.mpr ⟨_, Program.mem_locals_of_local? hl, ?_⟩))
    rw [Program.id_of_local? hl]
  | argument hm hc he =>
    obtain ⟨hlt, hle⟩ := at?_isSome_iff.mp (Option.isSome_of_eq_some he)
    exact Program.mem_allPlaces_of_position (Program.mem_callSites_of_mem_callersOfMethod hc)
      (fun _ => CallSite.mem_places_argument) hlt hle
  | typeArgument hs ho hm hc ht =>
    have hsome : (at? _ _).isSome :=
      Option.isSome_iff_ne_none.mpr fun hnone => hs' (CallSite.typeArgumentAt_eq_nothing_iff.mpr hnone)
    obtain ⟨hlt, hle⟩ := at?_isSome_iff.mp hsome
    exact Program.mem_allPlaces_of_position (Program.mem_callSites_of_mem_callersOfMethod hc)
      (fun _ => CallSite.mem_places_typeArgument) hlt hle

end Flow

/-- The places that are not among those seen. -/
def remaining (places seen : List Place) : List Place :=
  places.filter fun y => !seen.contains y

theorem length_remaining_cons_le (places seen : List Place) (x : Place) :
    (remaining places (x :: seen)).length ≤ (remaining places seen).length := by
  unfold remaining
  rw [← List.countP_eq_length_filter, ← List.countP_eq_length_filter]
  apply List.countP_mono_left
  intro y _ hy
  rw [List.contains_cons, Bool.not_or, Bool.and_eq_true] at hy
  exact hy.2

theorem length_remaining_cons_lt {places seen : List Place} {x : Place} (hx : x ∈ places)
    (hs : x ∉ seen) : (remaining places (x :: seen)).length < (remaining places seen).length := by
  have hsplit : remaining places (x :: seen) = (remaining places seen).filter fun y => !(y == x) := by
    unfold remaining
    rw [List.filter_filter]
    congr 1
    funext y
    rw [List.contains_cons, Bool.not_or]
  rw [hsplit, List.length_filter_lt_length_iff_exists]
  refine ⟨x, List.mem_filter.mpr ⟨hx, ?_⟩, by simp⟩
  simpa using hs

/-! ## One step -/

namespace Search

variable {g : Guard} {p : Program} {limit : Int} {s s' : Search} {w : Work} {rest : List Work}
  {f : Failure}

theorem advanceUnder_eq_ok : (s.advanceUnder g p limit w rest).result = .ok s' ↔
    (w.place ∈ s.expanded ∧ s' = { s with queue := rest }) ∨
      (w.place ∉ s.expanded ∧ (w.context.depth : Int) ≤ limit ∧
        ∃ x, (w.expandUnder g p).result = .ok x ∧ s' = s.grow w rest x) := by
  unfold advanceUnder
  by_cases hin : w.place ∈ s.expanded
  · rw [if_pos (List.contains_iff_mem.mpr hin)]
    constructor
    · intro h
      cases h
      exact Or.inl ⟨hin, rfl⟩
    · rintro (⟨_, rfl⟩ | ⟨hout, _⟩)
      · rfl
      · exact absurd hin hout
  · rw [if_neg fun h => hin (List.contains_iff_mem.mp h)]
    by_cases hd : limit < (w.context.depth : Int)
    · rw [if_pos hd]
      constructor
      · intro h
        cases h
      · rintro (⟨h, _⟩ | ⟨_, hle, _⟩)
        · exact absurd h hin
        · omega
    · rw [if_neg hd, Logged.result_bind_eq_ok]
      constructor
      · rintro ⟨x, hx, hs⟩
        cases hs
        exact Or.inr ⟨hin, by omega, x, hx, rfl⟩
      · rintro (⟨h, _⟩ | ⟨_, _, x, hx, rfl⟩)
        · exact absurd h hin
        · exact ⟨x, hx, rfl⟩

theorem advanceUnder_eq_error : (s.advanceUnder g p limit w rest).result = .error f ↔
    w.place ∉ s.expanded ∧
      ((limit < (w.context.depth : Int) ∧
          f = ⟨w.site, w.site.target.display, .depthExceeded limit, some w.context.origin⟩) ∨
        ((w.context.depth : Int) ≤ limit ∧ (w.expandUnder g p).result = .error f)) := by
  unfold advanceUnder
  by_cases hin : w.place ∈ s.expanded
  · rw [if_pos (List.contains_iff_mem.mpr hin)]
    constructor
    · intro h
      cases h
    · rintro ⟨hout, _⟩
      exact absurd hin hout
  · rw [if_neg fun h => hin (List.contains_iff_mem.mp h)]
    by_cases hd : limit < (w.context.depth : Int)
    · rw [if_pos hd]
      constructor
      · intro h
        cases h
        exact ⟨hin, Or.inl ⟨hd, rfl⟩⟩
      · rintro ⟨_, ⟨_, rfl⟩ | ⟨hle, _⟩⟩
        · rfl
        · omega
    · rw [if_neg hd, Logged.result_bind_eq_error]
      constructor
      · rintro (h | ⟨x, _, h⟩)
        · exact ⟨hin, Or.inr ⟨by omega, h⟩⟩
        · cases h
      · rintro ⟨_, ⟨h, _⟩ | ⟨_, h⟩⟩
        · exact absurd h hd
        · exact Or.inl h

theorem advance_eq_ok : (s.advance p limit w rest).result = .ok s' ↔
    (w.place ∈ s.expanded ∧ s' = { s with queue := rest }) ∨
      (w.place ∉ s.expanded ∧ (w.context.depth : Int) ≤ limit ∧
        ∃ x, (w.expand p).result = .ok x ∧ s' = s.grow w rest x) :=
  advanceUnder_eq_ok

theorem advance_eq_error : (s.advance p limit w rest).result = .error f ↔
    w.place ∉ s.expanded ∧
      ((limit < (w.context.depth : Int) ∧
          f = ⟨w.site, w.site.target.display, .depthExceeded limit, some w.context.origin⟩) ∨
        ((w.context.depth : Int) ≤ limit ∧ (w.expand p).result = .error f)) :=
  advanceUnder_eq_error

/-! ## Runs -/

theorem runUnder_nil {fuel : ℕ} (h : s.queue = []) : runUnder g p limit fuel s = .ok s := by
  cases fuel with
  | zero => rfl
  | succ fuel => simp only [runUnder, h]

theorem runUnder_cons {fuel : ℕ} (h : s.queue = w :: rest) :
    runUnder g p limit (fuel + 1) s = s.advanceUnder g p limit w rest >>= runUnder g p limit fuel := by
  simp only [runUnder, h]

theorem run_cons {fuel : ℕ} (h : s.queue = w :: rest) :
    run p limit (fuel + 1) s = s.advance p limit w rest >>= run p limit fuel :=
  runUnder_cons h

/-- What each step keeps holds at the end of a run, and where a run fails. -/
theorem run_induction (p : Program) (limit : Int) (I : Search → Prop)
    (hI : ∀ s w rest s', I s → s.queue = w :: rest → (s.advance p limit w rest).result = .ok s' → I s')
    (fuel : ℕ) (hs : I s) :
    (∀ s', (run p limit fuel s).result = .ok s' → I s') ∧
      ∀ f, (run p limit fuel s).result = .error f →
        ∃ s' w rest, I s' ∧ s'.queue = w :: rest ∧ (s'.advance p limit w rest).result = .error f := by
  induction fuel generalizing s with
  | zero =>
    constructor
    · intro s' h
      cases h
      exact hs
    · intro f h
      cases h
  | succ fuel ih =>
    cases hq : s.queue with
    | nil =>
      have hrun : run p limit (fuel + 1) s = .ok s := runUnder_nil hq
      rw [hrun]
      constructor
      · intro s' h
        cases h
        exact hs
      · intro f h
        cases h
    | cons w rest =>
      rw [run_cons hq]
      constructor
      · intro s' h
        obtain ⟨s₁, h₁, h₂⟩ := Logged.result_bind_eq_ok.mp h
        exact (ih (hI s w rest s₁ hs hq h₁)).1 s' h₂
      · intro f h
        rcases Logged.result_bind_eq_error.mp h with h₁ | ⟨s₁, h₁, h₂⟩
        · exact ⟨s, w, rest, hs, hq, h₁⟩
        · exact (ih (hI s w rest s₁ hs hq h₁)).2 f h₂

/-! ## Termination -/

/-- The work that waits, and the work that the remaining places can still give. -/
def load (p : Program) (places : List Place) (s : Search) : ℕ :=
  s.queue.length + (remaining places s.expanded).length * (p.callSites.length + 2)

/-- The work that waits is at some places, unless nothing is there. -/
def Within (places : List Place) (s : Search) : Prop :=
  ∀ w ∈ s.queue, w.subject ≠ .nothing → w.place ∈ places

theorem mem_enqueue {depth : ℕ} {successors queue : List Work} :
    w ∈ enqueue depth successors queue ↔
      w ∈ queue ∨ (w ∈ successors ∧ depth ≤ w.context.depth) := by
  unfold enqueue
  simp only [List.mem_append, List.mem_filter, beq_iff_eq, decide_eq_true_eq]
  constructor
  · rintro ((⟨h, hd⟩ | h) | ⟨h, hd⟩)
    · exact Or.inr ⟨h, by omega⟩
    · exact Or.inl h
    · exact Or.inr ⟨h, by omega⟩
  · rintro (h | ⟨h, hd⟩)
    · exact Or.inl (Or.inr h)
    · rcases Nat.eq_or_lt_of_le hd with he | hlt
      · exact Or.inl (Or.inl ⟨h, he.symm⟩)
      · exact Or.inr ⟨h, hlt⟩

theorem length_enqueue_le (depth : ℕ) (successors queue : List Work) :
    (enqueue depth successors queue).length ≤ queue.length + successors.length := by
  unfold enqueue
  rw [List.length_append, List.length_append]
  have hsplit := List.length_eq_length_filter_add (l := successors) fun w => w.context.depth == depth
  have hle : (successors.filter fun w => decide (depth < w.context.depth)).length ≤
      (successors.filter fun w => !(w.context.depth == depth)).length := by
    rw [← List.countP_eq_length_filter, ← List.countP_eq_length_filter]
    apply List.countP_mono_left
    intro w _ hw
    have hlt : depth < w.context.depth := by simpa using hw
    have hne : ¬ w.context.depth = depth := by omega
    simpa using hne
  omega

theorem load_skip_lt (places : List Place) (hq : s.queue = w :: rest) :
    load p places { s with queue := rest } < load p places s := by
  unfold load
  rw [hq, List.length_cons]
  dsimp only
  omega

/-- Looking at a place takes more from the load than the work that comes of it adds. -/
theorem load_grow_lt {places : List Place} (hq : s.queue = w :: rest) (hw : w.place ∈ places)
    (hout : w.place ∉ s.expanded) {x : Expansion} (hx : x.successors.length ≤ p.callSites.length + 1) :
    load p places (s.grow w rest x) < load p places s := by
  have hlen := length_enqueue_le w.context.depth x.successors rest
  have hlt := length_remaining_cons_lt hw hout
  have hmul := Nat.mul_le_mul_right (p.callSites.length + 2) (Nat.succ_le_of_lt hlt)
  rw [Nat.succ_mul] at hmul
  unfold load grow
  rw [hq, List.length_cons]
  dsimp only
  omega

theorem subject_ne_nothing_of_ok {x : Expansion} (h : (w.expandUnder g p).result = .ok x) :
    w.subject ≠ .nothing := by
  intro hs
  have hfault : FaultUnder p (g w.context) w.site w.subject w.site w.site.target.display
      .positionOutOfRange := hs ▸ .nothing
  rw [Work.expandUnder_of_fault hfault] at h
  cases h

theorem within_grow {places : List Place} (hp : ∀ y ∈ p.allPlaces, y ∈ places)
    (hin : Within places s) (hq : s.queue = w :: rest) {x : Expansion}
    (hx : w.ExpandedUnder g p x) : Within places (s.grow w rest x) := by
  intro v hv hsubject
  rcases mem_enqueue.mp hv with hv | ⟨hv, _⟩
  · exact hin v (hq ▸ List.mem_cons_of_mem w hv) hsubject
  · obtain ⟨via, y, t, hedge, _, rfl⟩ := (hx.mem_successors_iff v).mp hv
    rw [Work.follow_subject] at hsubject
    rw [Work.follow_place]
    exact hp y (hedge.mem_allPlaces hsubject)

theorem advanceUnder_load {places : List Place} (hp : ∀ y ∈ p.allPlaces, y ∈ places)
    (hin : Within places s) (hq : s.queue = w :: rest)
    (h : (s.advanceUnder g p limit w rest).result = .ok s') :
    Within places s' ∧ load p places s' < load p places s := by
  rcases advanceUnder_eq_ok.mp h with ⟨_, rfl⟩ | ⟨hout, _, x, hx, rfl⟩
  · exact ⟨fun v hv => hin v (hq ▸ List.mem_cons_of_mem w hv), load_skip_lt places hq⟩
  · have he := Work.expandedUnder_of_ok hx
    have hw : w.place ∈ places := hin w (hq ▸ List.mem_cons_self) (subject_ne_nothing_of_ok hx)
    exact ⟨within_grow hp hin hq he, load_grow_lt hq hw hout he.length_le⟩

/-- With fuel for its load a run ends with an empty queue. -/
theorem runUnder_drains (places : List Place) (hp : ∀ y ∈ p.allPlaces, y ∈ places) (fuel : ℕ)
    (hin : Within places s) (hf : load p places s ≤ fuel)
    (h : (runUnder g p limit fuel s).result = .ok s') : s'.queue = [] := by
  induction fuel generalizing s with
  | zero =>
    cases h
    unfold load at hf
    exact List.length_eq_zero_iff.mp (by omega)
  | succ fuel ih =>
    cases hq : s.queue with
    | nil =>
      rw [runUnder_nil hq] at h
      cases h
      exact hq
    | cons w rest =>
      rw [runUnder_cons hq] at h
      obtain ⟨s₁, h₁, h₂⟩ := Logged.result_bind_eq_ok.mp h
      obtain ⟨hin₁, hlt⟩ := advanceUnder_load hp hin hq h₁
      exact ih hin₁ (by omega) h₂

theorem within_first (p : Program) (w : Work) :
    Within (w.place :: p.allPlaces) { queue := [w] } := by
  intro v hv _
  rw [List.mem_singleton.mp hv]
  exact List.mem_cons_self

/-- A search begins with no more load than its bound. -/
theorem load_first_le (p : Program) (site : CallSite) (w : Work) :
    load p (w.place :: p.allPlaces) { queue := [w] } ≤ p.searchBound site := by
  have hle : (remaining (w.place :: p.allPlaces) []).length ≤
      2 * (p.placeCount + site.placeCount) + 1 := by
    have hfilter := List.length_filter_le (fun y => !([] : List Place).contains y)
      (w.place :: p.allPlaces)
    have hall := p.length_allPlaces_le
    unfold remaining
    rw [List.length_cons] at hfilter
    omega
  have hmul := Nat.mul_le_mul_right (p.callSites.length + 2) hle
  unfold load Program.searchBound
  rw [List.length_singleton]
  dsimp only
  omega

/-- The bound on the iterations is enough, whatever the guard leaves out. -/
theorem runUnder_bound_drains (site : CallSite)
    (h : (runUnder g p limit (p.searchBound site) { queue := [w] }).result = .ok s) : s.queue = [] :=
  runUnder_drains (w.place :: p.allPlaces) (fun _ hy => List.mem_cons_of_mem _ hy)
    (p.searchBound site) (within_first p w) (load_first_le p site w) h

end Search

/-! ## Whole searches -/

section Whole
variable {g : Guard} {p : Program} {limit : Int} {site : CallSite} {api : Option Api} {w : Work}

theorem resolveUnder_eq_error_of_seed {f : Failure} (h : seed site api = .error f) :
    (resolveUnder g p limit site api).result = .error f := by
  unfold resolveUnder
  exact Logged.result_bind_of_error _ h

theorem resolve_eq_error_of_seed {f : Failure} (h : seed site api = .error f) :
    (resolve p limit site api).result = .error f :=
  resolveUnder_eq_error_of_seed h

theorem resolveUnder_of_seed (h : seed site api = .ok w) : resolveUnder g p limit site api =
    (Search.runUnder g p limit (p.searchBound site) { queue := [w] } >>= fun s => do
      Logged.say (.resolved site.id site.location.display s.found.length s.deepest s.expanded.length)
      return s.found) := by
  unfold resolveUnder
  rw [h]
  rfl

theorem resolve_of_seed (h : seed site api = .ok w) : resolve p limit site api =
    (Search.run p limit (p.searchBound site) { queue := [w] } >>= fun s => do
      Logged.say (.resolved site.id site.location.display s.found.length s.deepest s.expanded.length)
      return s.found) :=
  resolveUnder_of_seed h

/-- A search ends with an empty queue or at a step that fails, and what each step keeps holds
there. -/
theorem resolve_induction (hw : seed site api = .ok w) (I : Search → Prop) (h₀ : I { queue := [w] })
    (hI : ∀ s w rest s', I s → s.queue = w :: rest → (s.advance p limit w rest).result = .ok s' → I s') :
    (∃ s, I s ∧ s.queue = [] ∧ (resolve p limit site api).result = .ok s.found) ∨
      ∃ s w rest f, I s ∧ s.queue = w :: rest ∧ (s.advance p limit w rest).result = .error f ∧
        (resolve p limit site api).result = .error f := by
  obtain ⟨hok, herror⟩ := Search.run_induction p limit I hI (p.searchBound site) h₀
  have hresolve : resolve p limit site api = _ := resolve_of_seed hw
  cases hr : (Search.run p limit (p.searchBound site) { queue := [w] }).result with
  | ok s =>
    refine Or.inl ⟨s, hok s hr, Search.runUnder_bound_drains site hr, ?_⟩
    rw [hresolve, Logged.result_bind_of_ok _ hr]
    exact Logged.result_say_bind _ _
  | error f =>
    obtain ⟨s, w', rest, hs, hq, hadv⟩ := herror f hr
    refine Or.inr ⟨s, w', rest, f, hs, hq, hadv, ?_⟩
    rw [hresolve]
    exact Logged.result_bind_of_error _ hr

end Whole

end TypeOrigins
