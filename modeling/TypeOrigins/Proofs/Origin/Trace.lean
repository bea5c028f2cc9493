import TypeOrigins.Proofs.Origin.Frontier

/-! # The loop from its first step to its last

`Search.Loop` is the loop of the search with nothing that bounds its steps: from a state, the work
that is looked at, in order, and the end. The loop ends for every program, whatever repeats or is
missing there, and `resolve` gives what it ends with. `Search.Sweep` says what all programs have in
common: no place is looked at twice, the depth never falls, and types are found in the order in
which the work that names them is looked at. -/

namespace TypeOrigins
set_option autoImplicit false

namespace Search

/-! ## The loop -/

/-- From a state the loop looks at the work listed and ends with the result. -/
inductive Loop (p : Program) (limit : Int) : Search → List Work → Except Failure Search → Prop
  | done {s : Search} (hq : s.queue = []) : Loop p limit s [] (.ok s)
  | skip {s : Search} {w : Work} {rest T : List Work} {r : Except Failure Search}
      (hq : s.queue = w :: rest) (hin : w.place ∈ s.expanded)
      (h : Loop p limit { s with queue := rest } T r) : Loop p limit s T r
  | look {s s' : Search} {w : Work} {rest T : List Work} {r : Except Failure Search}
      (hq : s.queue = w :: rest) (hout : w.place ∉ s.expanded)
      (hs : (s.advance p limit w rest).result = .ok s') (h : Loop p limit s' T r) :
      Loop p limit s (w :: T) r
  | fail {s : Search} {w : Work} {rest : List Work} {f : Failure} (hq : s.queue = w :: rest)
      (hf : (s.advance p limit w rest).result = .error f) : Loop p limit s [w] (.error f)

variable {p : Program} {limit : Int} {s : Search} {T : List Work} {r : Except Failure Search}

theorem Loop.of_nil (hq : s.queue = []) (h : Loop p limit s T r) : T = [] ∧ r = .ok s := by
  cases h with
  | done _ => exact ⟨rfl, rfl⟩
  | skip hq' _ _ | look hq' _ _ _ | fail hq' _ =>
    rw [hq] at hq'
    cases hq'

theorem Loop.of_cons {w : Work} {rest : List Work} (hq : s.queue = w :: rest)
    (h : Loop p limit s T r) :
    (w.place ∈ s.expanded ∧ Loop p limit { s with queue := rest } T r) ∨
      (w.place ∉ s.expanded ∧ ∃ s' T', (s.advance p limit w rest).result = .ok s' ∧ T = w :: T' ∧
        Loop p limit s' T' r) ∨
      ∃ f, (s.advance p limit w rest).result = .error f ∧ T = [w] ∧ r = .error f := by
  cases h with
  | done hq' =>
    rw [hq] at hq'
    cases hq'
  | skip hq' hin h =>
    rw [hq] at hq'
    cases hq'
    exact Or.inl ⟨hin, h⟩
  | look hq' hout hs h =>
    rw [hq] at hq'
    cases hq'
    exact Or.inr (Or.inl ⟨hout, _, _, hs, rfl, h⟩)
  | fail hq' hf =>
    rw [hq] at hq'
    cases hq'
    exact Or.inr (Or.inr ⟨_, hf, rfl, rfl⟩)

theorem Loop.unique {T' : List Work} {r' : Except Failure Search} (h : Loop p limit s T r)
    (h' : Loop p limit s T' r') : T = T' ∧ r = r' := by
  induction h generalizing T' r' with
  | done hq =>
    obtain ⟨rfl, rfl⟩ := h'.of_nil hq
    exact ⟨rfl, rfl⟩
  | skip hq hin _ ih =>
    rcases h'.of_cons hq with ⟨_, h'⟩ | ⟨hout, _⟩ | ⟨f, hf, _⟩
    · exact ih h'
    · exact absurd hin hout
    · exact absurd hin (advance_eq_error.mp hf).1
  | look hq hout hs _ ih =>
    rcases h'.of_cons hq with ⟨hin, _⟩ | ⟨_, s', T', hs', rfl, h'⟩ | ⟨f, hf, _⟩
    · exact absurd hin hout
    · rw [hs] at hs'
      cases hs'
      obtain ⟨rfl, rfl⟩ := ih h'
      exact ⟨rfl, rfl⟩
    · rw [hs] at hf
      cases hf
  | fail hq hf =>
    rcases h'.of_cons hq with ⟨hin, _⟩ | ⟨_, s', T', hs', _⟩ | ⟨g, hg, rfl, rfl⟩
    · exact absurd hin (advance_eq_error.mp hf).1
    · rw [hf] at hs'
      cases hs'
    · rw [hf] at hg
      cases hg
      exact ⟨rfl, rfl⟩

/-- A run with fuel for its load is the loop. -/
theorem exists_loop (places : List Place) (hp : ∀ y ∈ p.allPlaces, y ∈ places) (fuel : ℕ)
    (hin : Within places s) (hf : load p places s ≤ fuel) :
    ∃ T, Loop p limit s T (run p limit fuel s).result := by
  induction fuel generalizing s with
  | zero =>
    have hq : s.queue.length = 0 := by
      unfold load at hf
      omega
    exact ⟨[], .done (List.length_eq_zero_iff.mp hq)⟩
  | succ fuel ih =>
    cases hq : s.queue with
    | nil =>
      have hrun : run p limit (fuel + 1) s = .ok s := runUnder_nil hq
      rw [hrun]
      exact ⟨[], .done hq⟩
    | cons w rest =>
      rw [run_cons hq]
      cases hs : (s.advance p limit w rest).result with
      | error f =>
        rw [Logged.result_bind_of_error _ hs]
        exact ⟨[w], .fail hq hs⟩
      | ok s' =>
        rw [Logged.result_bind_of_ok _ hs]
        obtain ⟨hin', hlt⟩ := advanceUnder_load hp hin hq hs
        obtain ⟨T, hT⟩ := ih hin' (by omega)
        rcases advance_eq_ok.mp hs with ⟨hold, rfl⟩ | ⟨hnew, _⟩
        · exact ⟨T, .skip hq hold hT⟩
        · exact ⟨w :: T, .look hq hnew hs hT⟩

section Induction
variable (I : List Work → Search → Prop)
  (hskip : ∀ T s w rest, I T s → s.queue = w :: rest → w.place ∈ s.expanded →
    I T { s with queue := rest })
  (hlook : ∀ T s w rest x, I T s → s.queue = w :: rest → w.place ∉ s.expanded →
    (w.expand p).result = .ok x → I (T ++ [w]) (s.grow w rest x))
include hskip hlook

theorem Loop.induction_from {T₀ : List Work} (h : Loop p limit s T r) (h₀ : I T₀ s) :
    (∃ s', r = .ok s' ∧ s'.queue = [] ∧ I (T₀ ++ T) s') ∨
      ∃ T' s' w rest f, r = .error f ∧ T₀ ++ T = T' ++ [w] ∧ I T' s' ∧ s'.queue = w :: rest ∧
        (s'.advance p limit w rest).result = .error f := by
  induction h generalizing T₀ with
  | done hq => exact Or.inl ⟨_, rfl, hq, by rw [List.append_nil]; exact h₀⟩
  | skip hq hin _ ih => exact ih (hskip _ _ _ _ h₀ hq hin)
  | look hq hout hs _ ih =>
    rcases advance_eq_ok.mp hs with ⟨hin, _⟩ | ⟨_, _, x, hx, rfl⟩
    · exact absurd hin hout
    · have := ih (hlook _ _ _ _ _ h₀ hq hout hx)
      rw [List.append_assoc] at this
      exact this
  | fail hq hf => exact Or.inr ⟨T₀, _, _, _, _, rfl, rfl, h₀, hq, hf⟩

/-- What each step keeps of the work looked at and the state holds at the end of the loop, and where
it fails. -/
theorem Loop.induction (h : Loop p limit s T r) (h₀ : I [] s) :
    (∃ s', r = .ok s' ∧ s'.queue = [] ∧ I T s') ∨
      ∃ T' s' w rest f, r = .error f ∧ T = T' ++ [w] ∧ I T' s' ∧ s'.queue = w :: rest ∧
        (s'.advance p limit w rest).result = .error f :=
  h.induction_from I hskip hlook h₀

end Induction

/-! ## What all runs have in common -/

/-- The work looked at so far, and the state after it. -/
structure Sweep (T : List Work) (s : Search) : Prop where
  expanded : s.expanded = (T.map Work.place).reverse
  nodup : (T.map Work.place).Nodup
  queued : s.queue.Pairwise fun v w =>
    v.context.depth ≤ w.context.depth ∧ w.context.depth ≤ v.context.depth + 1
  looked : T.Pairwise fun v w => v.context.depth ≤ w.context.depth
  below : ∀ v ∈ T, ∀ w ∈ s.queue, v.context.depth ≤ w.context.depth
  le_deepest : ∀ v ∈ T, v.context.depth ≤ s.deepest
  deepest : s.deepest = 0 ∨ ∃ v ∈ T, v.context.depth = s.deepest
  mem_found : ∀ q, q ∈ s.found ↔ ∃ v ∈ T, v.subject.Names q
  found : s.found.Pairwise fun q q' => ∃ v ∈ T, v.subject.Names q ∧
    ∀ v' ∈ T, v'.subject.Names q' → v.context.depth ≤ v'.context.depth

namespace Sweep
variable {w : Work} {rest : List Work}

theorem initial (w : Work) : Sweep [] { queue := [w] } where
  expanded := rfl
  nodup := List.nodup_nil
  queued := List.pairwise_singleton _ w
  looked := .nil
  below := by simp
  le_deepest := by simp
  deepest := Or.inl rfl
  mem_found q := by simp
  found := .nil

theorem mem_expanded (h : Sweep T s) {y : Place} : y ∈ s.expanded ↔ ∃ v ∈ T, v.place = y := by
  rw [h.expanded, List.mem_reverse, List.mem_map]

theorem skip (h : Sweep T s) (hq : s.queue = w :: rest) : Sweep T { s with queue := rest } := by
  have hrest : ∀ v ∈ rest, v ∈ s.queue := fun v hv => hq ▸ List.mem_cons_of_mem w hv
  have hqueued := List.pairwise_cons.mp (hq ▸ h.queued)
  exact { h with queued := hqueued.2, below := fun v hv u hu => h.below v hv u (hrest u hu) }

theorem nodup_snoc (h : Sweep T s) (hout : w.place ∉ s.expanded) :
    ((T ++ [w]).map Work.place).Nodup := by
  have hnew : w.place ∉ T.map Work.place := by
    intro hmem
    exact hout (h.mem_expanded.mpr (List.mem_map.mp hmem))
  rw [List.map_append, List.map_singleton, ← List.concat_eq_append]
  exact h.nodup.concat hnew

theorem looked_snoc (h : Sweep T s) (hq : s.queue = w :: rest) :
    (T ++ [w]).Pairwise fun v w => v.context.depth ≤ w.context.depth := by
  rw [List.pairwise_append]
  refine ⟨h.looked, List.pairwise_singleton _ w, fun v hv u hu => ?_⟩
  rw [List.mem_singleton.mp hu]
  exact h.below v hv w (hq ▸ List.mem_cons_self)

/-- A type that work names for the first time comes after all others, and so does the work. -/
theorem found_snoc (h : Sweep T s) (hq : s.queue = w :: rest) (x : Option TypeReference) :
    (addFound s.found x).Pairwise fun q q' => ∃ v ∈ T ++ [w], v.subject.Names q ∧
      ∀ v' ∈ T ++ [w], v'.subject.Names q' → v.context.depth ≤ v'.context.depth := by
  have hw : ∀ v ∈ T, v.context.depth ≤ w.context.depth := fun v hv =>
    h.below v hv w (hq ▸ List.mem_cons_self)
  have hold : s.found.Pairwise fun q q' => ∃ v ∈ T ++ [w], v.subject.Names q ∧
      ∀ v' ∈ T ++ [w], v'.subject.Names q' → v.context.depth ≤ v'.context.depth := by
    refine h.found.imp ?_
    rintro q q' ⟨v, hv, hnames, hleast⟩
    refine ⟨v, List.mem_append_left _ hv, hnames, fun v' hv' hnames' => ?_⟩
    rcases List.mem_append.mp hv' with hv' | hv'
    · exact hleast v' hv' hnames'
    · rw [List.mem_singleton.mp hv']
      exact hw v hv
  cases x with
  | none => exact hold
  | some q' =>
    rw [addFound]
    split
    · exact hold
    · next hnew =>
      have hout : q' ∉ s.found := fun hin => hnew (List.contains_iff_mem.mpr hin)
      rw [List.pairwise_append]
      refine ⟨hold, List.pairwise_singleton _ q', fun q hin u hu => ?_⟩
      obtain rfl := List.mem_singleton.mp hu
      obtain ⟨v, hv, hnames⟩ := (h.mem_found q).mp hin
      refine ⟨v, List.mem_append_left _ hv, hnames, fun v' hv' hnames' => ?_⟩
      rcases List.mem_append.mp hv' with hv' | hv'
      · exact absurd ((h.mem_found u).mpr ⟨v', hv', hnames'⟩) hout
      · rw [List.mem_singleton.mp hv']
        exact hw v hv

theorem look (h : Sweep T s) (hq : s.queue = w :: rest) (hout : w.place ∉ s.expanded)
    {x : Expansion} (hx : (w.expand p).result = .ok x) : Sweep (T ++ [w]) (s.grow w rest x) := by
  have he := Work.expanded_of_ok hx
  have hqueued := List.pairwise_cons.mp (hq ▸ h.queued)
  have hbelow : ∀ v ∈ T ++ [w], v.context.depth ≤ w.context.depth := by
    intro v hv
    rcases List.mem_append.mp hv with hv | hv
    · exact h.below v hv w (hq ▸ List.mem_cons_self)
    · rw [List.mem_singleton.mp hv]
  constructor
  case expanded =>
    change w.place :: s.expanded = _
    simp [h.expanded]
  case nodup => exact h.nodup_snoc hout
  case queued =>
    refine Frontier.ordered_enqueue ?_ hqueued.1 hqueued.2
    intro v hv
    obtain ⟨via, y, t, _, _, rfl⟩ := (he.mem_successors v).mp hv
    have hle := Flow.steps_le_one via
    rw [Work.follow_depth]
    omega
  case looked => exact h.looked_snoc hq
  case below =>
    intro v hv u hu
    have hvw := hbelow v hv
    rcases (Frontier.mem_grow_queue he).mp hu with hu | ⟨via, y, t, _, _, rfl⟩
    · have := (hqueued.1 u hu).1
      omega
    · rw [Work.follow_depth]
      omega
  case le_deepest =>
    intro v hv
    exact (hbelow v hv).trans (Nat.le_max_right _ _)
  case deepest =>
    -- the last piece of work is the deepest so far
    refine Or.inr ⟨w, List.mem_append_right _ (List.mem_singleton_self w), ?_⟩
    change w.context.depth = max s.deepest w.context.depth
    rcases h.deepest with hzero | ⟨v, hv, hdepth⟩
    · omega
    · have := hbelow v (List.mem_append_left _ hv)
      omega
  case mem_found =>
    intro q
    change q ∈ addFound s.found x.found ↔ _
    rw [mem_addFound, h.mem_found, he.found_iff]
    simp [or_and_right, exists_or]
  case found => exact h.found_snoc hq x.found

end Sweep

/-- The work that a loop looks at from its first piece on. -/
theorem Loop.sweep {w : Work} (h : Loop p limit { queue := [w] } T r) :
    (T.map Work.place).Nodup ∧ T.Pairwise (fun v v' => v.context.depth ≤ v'.context.depth) ∧
      ∀ s, r = .ok s → Sweep T s := by
  rcases h.induction Sweep (fun _ _ _ _ hT hq _ => hT.skip hq)
    (fun _ _ _ _ _ hT hq hout hx => hT.look hq hout hx) (.initial w) with
    ⟨s, rfl, _, hT⟩ | ⟨T', s, v, rest, f, rfl, rfl, hT, hq, hf⟩
  · refine ⟨hT.nodup, hT.looked, fun s' hs' => ?_⟩
    cases hs'
    exact hT
  · refine ⟨hT.nodup_snoc (advance_eq_error.mp hf).1, hT.looked_snoc hq, fun s' hs' => ?_⟩
    cases hs'

end Search

/-! ## Whole searches -/

section Resolve
variable {p : Program} {limit : Int} {site : CallSite} {api : Option Api} {w : Work}

theorem exists_run_loop (p : Program) (limit : Int) (site : CallSite) (w : Work) :
    ∃ T, Search.Loop p limit { queue := [w] } T
      (Search.run p limit (p.searchBound site) { queue := [w] }).result :=
  Search.exists_loop (w.place :: p.allPlaces) (fun _ hy => List.mem_cons_of_mem _ hy) _
    (Search.within_first p w) (Search.load_first_le p site w)

theorem resolve_of_loop (hw : seed site api = .ok w) {T : List Work} {r : Except Failure Search}
    (h : Search.Loop p limit { queue := [w] } T r) :
    (resolve p limit site api).result = r.map Search.found ∧
      ∀ s, r = .ok s → (resolve p limit site api).events.getLast? =
        some (.resolved site.id site.location.display s.found.length s.deepest s.expanded.length) := by
  obtain ⟨T', hT'⟩ := exists_run_loop p limit site w
  have hr := (h.unique hT').2
  rw [resolve_of_seed hw]
  constructor
  · cases r with
    | error f => exact Logged.result_bind_of_error _ hr.symm
    | ok s =>
      rw [Logged.result_bind_of_ok _ hr.symm]
      exact Logged.result_say_bind _ _
  · rintro s rfl
    rw [Logged.events_bind_of_ok _ hr.symm]
    exact List.getLast?_concat

end Resolve

end TypeOrigins
