import TypeOrigins.Proofs.Origin.Precision

/-! # The search and the enumeration of paths

`enumerate` goes depth first along every path and gives up a path only where it meets itself again;
it shares no work between paths and knows no limit. A walk to a place can be made to meet no place
twice, so the enumeration looks at every place the search looks at, and they answer alike unless the
search meets its limit, whether or not it can say so. -/

namespace TypeOrigins
set_option autoImplicit false

/-! ## Enumeration -/

/-- The places of the program that are not on the path, and one more where something stands. -/
def Work.ahead (p : Program) (w : Work) : ℕ :=
  (remaining p.allPlaces w.context.visited).length + if w.subject = .nothing then 0 else 1

theorem Work.ahead_lt {p : Program} {w v : Work} {x : Expansion} (h : (w.expand p).result = .ok x)
    (hv : v ∈ x.successors) : v.ahead p < w.ahead p := by
  obtain ⟨via, y, s, e, hy, rfl⟩ := ((expanded_of_ok h).mem_successors v).mp hv
  have hw : w.subject ≠ .nothing := Search.subject_ne_nothing_of_ok h
  unfold ahead
  rw [follow_visited hy, follow_subject, if_neg hw]
  by_cases hs : s = .nothing
  · have hle := length_remaining_cons_le p.allPlaces w.context.visited y
    rw [if_pos hs]
    omega
  · have hlt := length_remaining_cons_lt (e.mem_allPlaces hs) hy
    rw [if_neg hs]
    omega

/-- The types on all paths from a place, a failure if one fails. -/
def explore (p : Program) (w : Work) : Except Failure (List TypeReference) :=
  match _h : (w.expand p).result with
  | .error f => .error f
  | .ok x => do
      let found ← x.successors.attach.mapM fun v => explore p v.1
      .ok (x.found.toList ++ found.flatten)
termination_by w.ahead p
decreasing_by exact Work.ahead_lt _h v.2

/-- The types that a call can build, path by path. -/
def enumerate (p : Program) (site : CallSite) (api : Option Api) :
    Except Failure (List TypeReference) := do
  let w ← seed site api
  explore p w

section Explore
variable {p : Program} {w : Work}

theorem explore_of_error {f : Failure} (h : (w.expand p).result = .error f) :
    explore p w = .error f := by
  rw [explore]
  split
  · next f' h' =>
    rw [h] at h'
    cases h'
    rfl
  · next x h' =>
    rw [h] at h'
    cases h'

theorem explore_of_ok {x : Expansion} (h : (w.expand p).result = .ok x) :
    explore p w = (x.successors.mapM (explore p) >>= fun found =>
      .ok (x.found.toList ++ found.flatten)) := by
  rw [explore]
  split
  · next f h' =>
    rw [h] at h'
    cases h'
  · next x' h' =>
    rw [h] at h'
    cases h'
    simp

end Explore

/-! ## What an enumeration looks at -/

theorem mapM_cases {ε α β : Type} (f : α → Except ε β) (l : List α) :
    (∃ ys, l.mapM f = .ok ys ∧ (∀ a ∈ l, ∃ b, f a = .ok b) ∧ ∀ b, b ∈ ys ↔ ∃ a ∈ l, f a = .ok b) ∨
      ∃ e, l.mapM f = .error e ∧ ∃ a ∈ l, f a = .error e := by
  induction l with
  | nil => exact Or.inl ⟨[], rfl, by simp, by simp⟩
  | cons a rest ih =>
    rw [List.mapM_cons]
    cases ha : f a with
    | error e => exact Or.inr ⟨e, rfl, a, List.mem_cons_self, ha⟩
    | ok b =>
      rcases ih with ⟨ys, hys, hall, hmem⟩ | ⟨e, he, d, hd, hde⟩
      · refine Or.inl ⟨b :: ys, by rw [hys]; rfl, ?_, ?_⟩
        · intro d hd
          rcases List.mem_cons.mp hd with rfl | hd
          · exact ⟨b, ha⟩
          · exact hall d hd
        · intro b'
          rw [List.mem_cons, hmem]
          constructor
          · rintro (rfl | ⟨d, hd, hdb⟩)
            · exact ⟨a, List.mem_cons_self, ha⟩
            · exact ⟨d, List.mem_cons_of_mem a hd, hdb⟩
          · rintro ⟨d, hd, hdb⟩
            rcases List.mem_cons.mp hd with rfl | hd
            · rw [ha] at hdb
              cases hdb
              exact Or.inl rfl
            · exact Or.inr ⟨d, hd, hdb⟩
      · exact Or.inr ⟨e, by rw [he]; rfl, d, List.mem_cons_of_mem a hd, hde⟩

/-- The work that an enumeration comes to, as long as nothing on the way fails. -/
inductive Visits (p : Program) : Work → Work → Prop
  | here (w : Work) : Visits p w w
  | onward {w v u : Work} {x : Expansion} (hx : (w.expand p).result = .ok x)
      (hv : v ∈ x.successors) (h : Visits p v u) : Visits p w u

theorem visits_iff {p : Program} {w u : Work} {x : Expansion} (hx : (w.expand p).result = .ok x) :
    Visits p w u ↔ u = w ∨ ∃ v ∈ x.successors, Visits p v u := by
  constructor
  · intro h
    cases h with
    | here => exact Or.inl rfl
    | onward hx' hv hu =>
      rw [hx] at hx'
      cases hx'
      exact Or.inr ⟨_, hv, hu⟩
  · rintro (rfl | ⟨v, hv, hu⟩)
    · exact .here u
    · exact .onward hx hv hu

/-- Either nothing that is visited fails and the types found there are the answer, or the answer is
the failure of something visited. -/
def Explored (p : Program) (w : Work) : Except Failure (List TypeReference) → Prop
  | .ok refs => (∀ u, Visits p w u → ∃ x, (u.expand p).result = .ok x) ∧
      ∀ r, r ∈ refs ↔ ∃ u x, Visits p w u ∧ (u.expand p).result = .ok x ∧ x.found = some r
  | .error f => ∃ u, Visits p w u ∧ (u.expand p).result = .error f

theorem explored_of_successors {p : Program} {w : Work} {x : Expansion}
    (hx : (w.expand p).result = .ok x) {found : List (List TypeReference)}
    (hall : ∀ v ∈ x.successors, ∃ refs, refs ∈ found ∧ Explored p v (.ok refs))
    (hfound : ∀ refs ∈ found, ∃ v ∈ x.successors, Explored p v (.ok refs)) :
    Explored p w (.ok (x.found.toList ++ found.flatten)) := by
  constructor
  · intro u hu
    rcases (visits_iff hx).mp hu with rfl | ⟨v, hv, hvu⟩
    · exact ⟨x, hx⟩
    · obtain ⟨refs, _, hok, _⟩ := hall v hv
      exact hok u hvu
  · intro r
    rw [List.mem_append, List.mem_flatten, Option.mem_toList]
    constructor
    · rintro (hr | ⟨refs, hrefs, hr⟩)
      · exact ⟨w, x, .here w, hx, hr⟩
      · obtain ⟨v, hv, _, hmem⟩ := hfound refs hrefs
        obtain ⟨u, x', hu, hx', hr'⟩ := (hmem r).mp hr
        exact ⟨u, x', .onward hx hv hu, hx', hr'⟩
    · rintro ⟨u, x', hu, hx', hr⟩
      rcases (visits_iff hx).mp hu with rfl | ⟨v, hv, hvu⟩
      · rw [hx] at hx'
        cases hx'
        exact Or.inl hr
      · obtain ⟨refs, hrefs, _, hmem⟩ := hall v hv
        exact Or.inr ⟨refs, hrefs, (hmem r).mpr ⟨u, x', hvu, hx', hr⟩⟩

theorem explored (p : Program) (w : Work) : Explored p w (explore p w) := by
  induction hn : w.ahead p using Nat.strong_induction_on generalizing w with
  | _ n ih =>
  cases hx : (w.expand p).result with
  | error f =>
    rw [explore_of_error hx]
    exact ⟨w, .here w, hx⟩
  | ok x =>
    have hrec : ∀ v ∈ x.successors, Explored p v (explore p v) := fun v hv =>
      ih _ (hn ▸ Work.ahead_lt hx hv) v rfl
    rw [explore_of_ok hx]
    rcases mapM_cases (explore p) x.successors with ⟨found, hfound, hall, hmem⟩ | ⟨f, hf, v, hv, hvf⟩
    · rw [hfound]
      refine explored_of_successors hx ?_ ?_
      · intro v hv
        obtain ⟨refs, hrefs⟩ := hall v hv
        exact ⟨refs, (hmem refs).mpr ⟨v, hv, hrefs⟩, hrefs ▸ hrec v hv⟩
      · intro refs hrefs
        obtain ⟨v, hv, hvr⟩ := (hmem refs).mp hrefs
        exact ⟨v, hv, hvr ▸ hrec v hv⟩
    · rw [hf]
      obtain ⟨u, hu, huf⟩ : Explored p v (.error f) := hvf ▸ hrec v hv
      exact ⟨u, .onward hx hv hu, huf⟩

theorem Visits.located {p : Program} (hp : (p.callSites.map CallSite.id).Nodup) {origin : CallSite}
    {start : Place} {w u : Work} (h : Visits p w u) (hw : w.Located p origin start) :
    u.Located p origin start := by
  induction h with
  | here => exact hw
  | onward hx hv _ ih =>
    obtain ⟨via, y, s, e, _, rfl⟩ := ((Work.expanded_of_ok hx).mem_successors _).mp hv
    exact ih (hw.follow hp e)

/-! ## Paths that meet no place twice -/

namespace Flow

/-- From a place to another over places that are not among those seen. -/
inductive Leads (p : Program) (seen : List Place) (x : Place) : Place → Prop
  | here : Leads p seen x x
  | onward {y z : Place} {via : Option CallSite} {s : Subject} (h : Leads p seen x y)
      (e : Edge p (p.subjectAt y) via z s) (hz : z ∉ seen) : Leads p seen x z

variable {p : Program} {seen : List Place} {x y : Place}

theorem Walk.leads {origin c : CallSite} {start : Place} {k : ℕ} (h : Walk p origin start k c y) :
    Leads p [] start y := by
  induction h with
  | start => exact .here
  | within _ e ih => exact ih.onward e List.not_mem_nil
  | caller _ e ih => exact ih.onward e List.not_mem_nil

/-- A way need not come back to where it began: what follows the last return is a way too. -/
theorem Leads.avoiding_start (h : Leads p seen x y) : Leads p (x :: seen) x y := by
  induction h with
  | here => exact .here
  | @onward y z via s _ e hz ih =>
    by_cases hzx : z = x
    · rw [hzx]
      exact .here
    · exact ih.onward e (by simp [hzx, hz])

theorem Leads.first_step (h : Leads p seen x y) :
    y = x ∨ ∃ via z s, Edge p (p.subjectAt x) via z s ∧ z ∉ seen ∧ Leads p seen z y := by
  induction h with
  | here => exact Or.inl rfl
  | onward _ e hz ih =>
    rcases ih with rfl | ⟨via, z', s, e', hz', h'⟩
    · exact Or.inr ⟨_, _, _, e, hz, .here⟩
    · exact Or.inr ⟨via, z', s, e', hz', h'.onward e hz⟩

end Flow

/-- Where nothing fails, the enumeration comes to the end of every way off its path. -/
theorem exists_visits_of_leads {p : Program} (hp : (p.callSites.map CallSite.id).Nodup)
    {origin : CallSite} {start y : Place} {w : Work} (hw : w.Located p origin start)
    (hok : ∀ u, Visits p w u → ∃ x, (u.expand p).result = .ok x)
    (h : Flow.Leads p w.context.visited w.place y) : ∃ u, Visits p w u ∧ u.place = y := by
  induction hn : w.ahead p using Nat.strong_induction_on generalizing w with
  | _ n ih =>
  rcases h.first_step with rfl | ⟨via, z, s, e, hz, hzy⟩
  · exact ⟨w, .here w, rfl⟩
  · obtain ⟨x, hx⟩ := hok w (.here w)
    rw [← hw.subject_eq] at e
    have hv : w.follow via z s ∈ x.successors :=
      ((Work.expanded_of_ok hx).mem_successors _).mpr ⟨via, z, s, e, hz, rfl⟩
    have hzy' : Flow.Leads p (w.follow via z s).context.visited (w.follow via z s).place y := by
      rw [Work.follow_visited hz, Work.follow_place]
      exact hzy.avoiding_start
    obtain ⟨u, hu, huy⟩ := ih _ (hn ▸ Work.ahead_lt hx hv) (hw.follow hp e)
      (fun u hu => hok u (.onward hx hv hu)) hzy' rfl
    exact ⟨u, .onward hx hv hu, huy⟩

/-! ## The answers of the enumeration -/

section Answers
variable {p : Program} {site : CallSite} {api : Option Api} {w : Work}

theorem exists_visits_of_reachable (hp : (p.callSites.map CallSite.id).Nodup)
    (hsite : site ∈ p.callSites) (hw : seed site api = .ok w)
    (hok : ∀ u, Visits p w u → ∃ x, (u.expand p).result = .ok x) {y : Place}
    (hy : Flow.Reachable p site w.place y) : ∃ u, Visits p w u ∧ u.place = y := by
  obtain ⟨k, c, hwalk⟩ := hy
  obtain ⟨_, _, _, _, hvisited⟩ := seed_place hw
  refine exists_visits_of_leads hp (seed_located hp hsite hw) hok ?_
  rw [hvisited]
  exact hwalk.leads.avoiding_start

theorem explore_eq_error_iff (hp : (p.callSites.map CallSite.id).Nodup) (hsite : site ∈ p.callSites)
    (hw : seed site api = .ok w) :
    (∃ f, explore p w = .error f) ↔ ∃ y, Flow.Reachable p site w.place y ∧ Flow.Fails p y := by
  have hloc := seed_located hp hsite hw
  have hexp := explored p w
  constructor
  · rintro ⟨f, hf⟩
    rw [hf] at hexp
    obtain ⟨u, hu, huf⟩ := hexp
    have hu' := hu.located hp hloc
    exact ⟨u.place, ⟨_, _, hu'.walk⟩, u, f, rfl, hu'.subject_eq, huf⟩
  · rintro ⟨y, hy, hfails⟩
    cases he : explore p w with
    | error f => exact ⟨f, rfl⟩
    | ok refs =>
      -- Had nothing failed, the enumeration would have come to the place.
      rw [he] at hexp
      obtain ⟨u, hu, rfl⟩ := exists_visits_of_reachable hp hsite hw hexp.1 hy
      obtain ⟨x, hx⟩ := hexp.1 u hu
      have hu' := hu.located hp hloc
      exact absurd hfails (Flow.not_fails_of_ok hu'.subject_eq (hu'.steady hp) hx)

theorem mem_explore (hp : (p.callSites.map CallSite.id).Nodup) (hsite : site ∈ p.callSites)
    (hw : seed site api = .ok w) {refs : List TypeReference} (h : explore p w = .ok refs)
    (r : TypeReference) :
    r ∈ refs ↔ ∃ y, Flow.Reachable p site w.place y ∧ (p.subjectAt y).Names r := by
  have hloc := seed_located hp hsite hw
  have hexp := explored p w
  rw [h] at hexp
  rw [hexp.2]
  constructor
  · rintro ⟨u, x, hu, hx, hr⟩
    have hu' := hu.located hp hloc
    refine ⟨u.place, ⟨_, _, hu'.walk⟩, ?_⟩
    rw [← hu'.subject_eq]
    exact ((Work.expanded_of_ok hx).found_iff r).mp hr
  · rintro ⟨y, hy, hr⟩
    obtain ⟨u, hu, rfl⟩ := exists_visits_of_reachable hp hsite hw hexp.1 hy
    obtain ⟨x, hx⟩ := hexp.1 u hu
    rw [← (hu.located hp hloc).subject_eq] at hr
    exact ⟨u, x, hu, hx, ((Work.expanded_of_ok hx).found_iff r).mpr hr⟩

theorem enumerate_of_seed_error {f : Failure} (hw : seed site api = .error f) :
    enumerate p site api = .error f := by
  unfold enumerate
  rw [hw]
  rfl

theorem enumerate_of_seed (hw : seed site api = .ok w) : enumerate p site api = explore p w := by
  unfold enumerate
  rw [hw]
  rfl

end Answers

/-! ## The search and the enumeration -/

/-- Both fail, or both give the same types. -/
def AnswersAlike (x y : Except Failure (List TypeReference)) : Prop :=
  ((∃ f, x = .error f) ↔ ∃ f, y = .error f) ∧
    ∀ refs refs', x = .ok refs → y = .ok refs' → ∀ r, r ∈ refs ↔ r ∈ refs'

section Comparison
variable {p : Program} {limit : Int} {site : CallSite} {api : Option Api}

theorem answersAlike_of_within (hp : (p.callSites.map CallSite.id).Nodup) (hsite : site ∈ p.callSites)
    (h : ∀ f, (resolve p limit site api).result = .error f → f.cause ≠ .depthExceeded limit) :
    AnswersAlike (resolve p limit site api).result (enumerate p site api) := by
  unfold AnswersAlike
  cases hw : seed site api with
  | error f =>
    have hr : (resolve p limit site api).result = .error f := resolve_eq_error_of_seed hw
    refine ⟨⟨fun _ => ⟨f, enumerate_of_seed_error hw⟩, fun _ => ⟨f, hr⟩⟩, ?_⟩
    intro refs refs' hrefs
    rw [hr] at hrefs
    cases hrefs
  | ok w =>
    have hv := resolve_verdict hp limit hsite hw
    rw [enumerate_of_seed hw, explore_eq_error_iff hp hsite hw]
    generalize (resolve p limit site api).result = result at h hv ⊢
    cases hv with
    | complete refs nodup within mem_iff =>
      refine ⟨⟨?_, ?_⟩, ?_⟩
      · rintro ⟨f, hf⟩
        cases hf
      · rintro ⟨y, hy, hfails⟩
        exact absurd hfails (within y hy).1
      · intro _ refs' hrefs hrefs' r
        cases hrefs
        rw [mem_iff, mem_explore hp hsite hw hrefs']
    | failed v f located distance le_limit error nearest =>
      have hfails : Flow.Fails p v.place := ⟨v, f, rfl, located.subject_eq, error⟩
      refine ⟨⟨fun _ => ⟨v.place, distance.reachable, hfails⟩, fun _ => ⟨f, rfl⟩⟩, ?_⟩
      intro refs refs' hrefs
      cases hrefs
    | tooFar v located distance beyond near within => exact absurd rfl (h _ rfl)

end Comparison

/-- A search that does not report its limit answers as the enumeration of all paths does, or it did
meet its limit and a number in the report is too long to be written. -/
theorem resolve_agrees_with_enumerate (p : Program) (hp : (p.callSites.map CallSite.id).Nodup)
    (limit : Int) (site : CallSite) (hsite : site ∈ p.callSites) (api : Option Api)
    (h : ∀ f, (resolve p limit site api).result = .error f → f.raised ≠ .ok .depthLimit) :
    AnswersAlike (resolve p limit site api).result (enumerate p site api) ∨
      ∃ f, (resolve p limit site api).result = .error f ∧ f.cause = .depthExceeded limit ∧
        f.raised = .error .longInteger ∧
        (f.site.location.isWritable = false ∨ site.location.isWritable = false ∨
          Text.isLong limit = true) := by
  by_cases hdeep : ∃ f, (resolve p limit site api).result = .error f ∧ f.cause = .depthExceeded limit
  · obtain ⟨f, hf, hc⟩ := hdeep
    refine Or.inr ⟨f, hf, hc, ?_⟩
    rcases raised_of_depthExceeded hp hsite hf hc with hraised | hlong
    · exact absurd hraised (h f hf)
    · exact hlong
  · refine Or.inl (answersAlike_of_within hp hsite fun f hf hc => ?_)
    exact hdeep ⟨f, hf, hc⟩

open Factory in
theorem resolve_agrees_on_factory :
    ((program widget).callSites.map CallSite.id).Nodup ∧ create ∈ (program widget).callSites ∧
      (resolve (program widget) 1 create none).result = .ok [⟨"App", "App.Widget"⟩] ∧
      ∃ refs, enumerate (program widget) create none = .ok refs ∧
        ∀ r, r ∈ [(⟨"App", "App.Widget"⟩ : TypeReference)] ↔ r ∈ refs := by
  have hp : ((program widget).callSites.map CallSite.id).Nodup := by decide
  have hsite : create ∈ (program widget).callSites := by decide
  have hr : (resolve (program widget) 1 create none).result = .ok [⟨"App", "App.Widget"⟩] := by rfl
  refine ⟨hp, hsite, hr, ?_⟩
  rcases resolve_agrees_with_enumerate (program widget) hp 1 create hsite none
    (by rw [hr]; exact fun f hf => nomatch hf) with h | ⟨f, hf, _⟩
  · cases he : enumerate (program widget) create none with
    | error f =>
      obtain ⟨f', hf'⟩ := h.1.mpr ⟨f, he⟩
      rw [hr] at hf'
      cases hf'
    | ok refs => exact ⟨refs, rfl, h.2 _ refs hr he⟩
  · rw [hr] at hf
    cases hf

/-! A call that is one step too far stands on a line with one digit too many. -/

namespace Factory

def distant : CallSite :=
  { entry widget with location := ⟨"Program.cs", Nat.pow 10 Text.digitLimit, 0⟩ }

def withDistant : Program where
  methods := [make]
  locals := [kind]
  callSites := [create, distant]

end Factory

open Factory in
theorem resolve_differs_from_enumerate :
    (withDistant.callSites.map CallSite.id).Nodup ∧ create ∈ withDistant.callSites ∧
      (∃ f, (resolve withDistant 0 create none).result = .error f ∧ f.raised ≠ .ok .depthLimit) ∧
      ∃ refs, enumerate withDistant create none = .ok refs := by
  have hp : (withDistant.callSites.map CallSite.id).Nodup := by decide +kernel
  have hsite : create ∈ withDistant.callSites := by decide +kernel
  have hr : (resolve withDistant 1 create none).result = .ok [⟨"App", "App.Widget"⟩] := by
    decide +kernel
  have hshort : (resolve withDistant 0 create none).result =
      .error ⟨distant, "App.Factory.Make", .depthExceeded 0, some create⟩ := by decide +kernel
  refine ⟨hp, hsite, ⟨_, hshort, by decide +kernel⟩, ?_⟩
  cases he : enumerate withDistant create none with
  | error f =>
    have h : AnswersAlike (resolve withDistant 1 create none).result (enumerate withDistant create none) :=
      answersAlike_of_within hp hsite (by rw [hr]; exact fun f hf => nomatch hf)
    obtain ⟨f', hf'⟩ := h.1.mpr ⟨f, he⟩
    rw [hr] at hf'
    cases hf'
  | ok refs => exact ⟨refs, rfl⟩

end TypeOrigins
