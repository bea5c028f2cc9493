import TypeOrigins.Proofs.Origin.Expansion
import TypeOrigins.Proofs.Program.Alike

/-! # The search on alike programs

Two searches on alike programs go in step: corresponding work gives corresponding work, or failures
of the same kind at corresponding calls, so the queues, the places looked at and the types found
correspond all along. Both searches end with the same types in the same order, or both fail. -/

namespace TypeOrigins
set_option autoImplicit false

/-! ## Results that agree -/

/-- Both are values that `R` relates, or both are errors that `E` relates. -/
inductive Agree {ε α β : Type} (E : ε → ε → Prop) (R : α → β → Prop) :
    Except ε α → Except ε β → Prop
  | ok {a : α} {b : β} (h : R a b) : Agree E R (.ok a) (.ok b)
  | error {e f : ε} (h : E e f) : Agree E R (.error e) (.error f)

theorem Agree.bind {ε α β γ δ : Type} {E : ε → ε → Prop} {R : α → β → Prop} {S : γ → δ → Prop}
    {x : Logged ε α} {y : Logged ε β} {f : α → Logged ε γ} {g : β → Logged ε δ}
    (h : Agree E R x.result y.result) (hfg : ∀ a b, R a b → Agree E S (f a).result (g b).result) :
    Agree E S (x >>= f).result (y >>= g).result := by
  generalize hx : x.result = rx at h
  generalize hy : y.result = ry at h
  cases h with
  | ok hab =>
    rw [Logged.result_bind_of_ok f hx, Logged.result_bind_of_ok g hy]
    exact hfg _ _ hab
  | error hef =>
    rw [Logged.result_bind_of_error f hx, Logged.result_bind_of_error g hy]
    exact .error hef

/-! ## Places -/

namespace Renaming
variable (ρ : Renaming)

def holder : PlaceKind → String → String
  | .typeArgument => ρ.callSite
  | .argument => ρ.callSite
  | .localVariable => ρ.localVariable

def place (x : Place) : Place := { x with id := ρ.holder x.kind x.id }

theorem place_injective : Function.Injective ρ.place := by
  rintro ⟨kind, id, i⟩ ⟨kind', id', i'⟩ h
  have hkind : kind = kind' := congrArg Place.kind h
  have hid : ρ.holder kind id = ρ.holder kind' id' := congrArg Place.id h
  have hi : i = i' := congrArg Place.position h
  subst hkind
  have hholder : id = id' := by
    cases kind with
    | typeArgument => exact ρ.callSite_injective hid
    | argument => exact ρ.callSite_injective hid
    | localVariable => exact ρ.localVariable_injective hid
  rw [hholder, hi]

theorem contains_places (xs : List Place) (x : Place) :
    (xs.map ρ.place).contains (ρ.place x) = xs.contains x := by
  rw [Bool.eq_iff_iff, List.contains_iff_mem, List.contains_iff_mem]
  exact List.mem_map_of_injective ρ.place_injective

end Renaming

/-! ## Work -/

/-- Failures of the same kind at corresponding calls. -/
structure Failure.Alike (ρ : Renaming) (f g : Failure) : Prop where
  category : g.cause.category = f.cause.category
  writable : g.cause.isWritable = f.cause.isWritable
  site : g.site.id = ρ.callSite f.site.id

inductive Subject.Alike (ρ : Renaming) (N : Int → Prop) : Subject → Subject → Prop
  | symbol {t u : TypeSymbol} (h : t.Alike ρ u) : Alike ρ N (.symbol t) (.symbol u)
  | value {e f : Expression} (h : e.Alike ρ N f) : Alike ρ N (.value e) (.value f)
  | nothing : Alike ρ N .nothing .nothing

structure Context.Alike (ρ : Renaming) (c d : Context) : Prop where
  visited : d.visited = c.visited.map ρ.place
  depth : d.depth = c.depth

structure Work.Alike (ρ : Renaming) (N : Int → Prop) (w v : Work) : Prop where
  place : v.place = ρ.place w.place
  site : w.site.Alike ρ N v.site
  subject : w.subject.Alike ρ N v.subject
  context : w.context.Alike ρ v.context

structure Expansion.Alike (ρ : Renaming) (N : Int → Prop) (x y : Expansion) : Prop where
  successors : List.Forall₂ (Work.Alike ρ N) x.successors y.successors
  found : y.found = x.found

structure Search.Alike (ρ : Renaming) (N : Int → Prop) (s t : Search) : Prop where
  queue : List.Forall₂ (Work.Alike ρ N) s.queue t.queue
  expanded : t.expanded = s.expanded.map ρ.place
  found : t.found = s.found

namespace Context.Alike
variable {ρ : Renaming} {c d : Context} (h : c.Alike ρ d)
include h

theorem contains_eq (x : Place) : d.contains (ρ.place x) = c.contains x := by
  unfold Context.contains
  rw [h.visited, ρ.contains_places]

theorem visit_eq (x : Place) : d.visit (ρ.place x) = (c.visit x).map ρ.place := by
  unfold Context.visit
  rw [h.visited, ρ.contains_places]
  split <;> rfl

theorem enter (x : Place) : (c.enter x).Alike ρ (d.enter (ρ.place x)) := ⟨h.visit_eq x, h.depth⟩

theorem descend (x : Place) : (c.descend x).Alike ρ (d.descend (ρ.place x)) :=
  ⟨h.visit_eq x, congrArg (· + 1) h.depth⟩

end Context.Alike

/-! ## Steps -/

section Steps
variable {ρ : Renaming} {N : Int → Prop} {c d : Context} {site site' : CallSite}

theorem agree_failureAt {α β : Type} {R : α → β → Prop} (hsite : site.Alike ρ N site')
    (construct construct' : String) {cause cause' : Cause} (hcause : cause'.category = cause.category)
    (hwritable : cause'.isWritable = cause.isWritable) :
    Agree (Failure.Alike ρ) R (failureAt c site construct cause).result
      (failureAt d site' construct' cause').result :=
  .error ⟨hcause, hwritable, hsite.id⟩

theorem rel_at? {α β : Type} {R : α → β → Prop} {l : List α} {l' : List β} (hl : List.Forall₂ R l l')
    (i : Int) : Option.Rel R (at? l i) (at? l' i) := by
  unfold at?
  rw [← hl.length_eq]
  split
  · exact rel_getElem? hl _
  · split
    · exact rel_getElem? hl _
    · exact .none

theorem CallSite.Alike.typeArgumentAt (h : site.Alike ρ N site') (i : Int) :
    (site.typeArgumentAt i).Alike ρ N (site'.typeArgumentAt i) := by
  have hsymbol := rel_at? h.typeArguments i
  unfold CallSite.typeArgumentAt
  generalize at? site.typeArguments i = t at hsymbol
  generalize at? site'.typeArguments i = u at hsymbol
  cases hsymbol with
  | none => exact .nothing
  | some htu => exact .symbol htu

/-- Alike callers bind a parameter at corresponding places, to what is alike. -/
structure Binding.Alike (ρ : Renaming) (N : Int → Prop) (b b' : Binding) : Prop where
  kind : b'.kind = b.kind
  position : b'.position = b.position
  holder : ρ.holder b.kind = ρ.callSite
  count : ∀ {e e' : CallSite}, e.Alike ρ N e' → b'.count e' = b.count e
  category : b'.missing.category = b.missing.category
  writable : b'.missing.isWritable = b.missing.isWritable
  subject : ∀ {e e' : CallSite}, e.Alike ρ N e' →
    Option.Rel (Subject.Alike ρ N) (b.subject e) (b'.subject e')

theorem Binding.Alike.place {b b' : Binding} (h : b.Alike ρ N b') (hsite : site.Alike ρ N site') :
    b'.place site' = ρ.place (b.place site) := by
  unfold Binding.place Renaming.place
  rw [h.kind, h.position, h.holder, hsite.id]

theorem TypeParameter.Alike.binding {t u : TypeParameter} (h : t.Alike ρ u) :
    t.binding.Alike ρ N u.binding where
  kind := rfl
  position := h.ordinal
  holder := rfl
  count he := he.typeArguments.length_eq.symm
  category := rfl
  writable := rfl
  subject he := by
    unfold TypeParameter.binding
    rw [h.ordinal]
    exact .some (he.typeArgumentAt t.ordinal)

theorem alike_parameterBinding (k : Int) (name name' : String) :
    (parameterBinding k name).Alike ρ N (parameterBinding k name') where
  kind := rfl
  position := rfl
  holder := rfl
  count he := he.arguments.length_eq.symm
  category := rfl
  writable := rfl
  subject he := rel_map (rel_at? he.arguments k) fun _ _ => .value

theorem agree_spread (hc : c.Alike ρ d) {construct construct' : String} {b b' : Binding}
    (hb : b.Alike ρ N b') {callers callers' : List CallSite}
    (hcallers : List.Forall₂ (CallSite.Alike ρ N) callers callers') :
    Agree (Failure.Alike ρ) (List.Forall₂ (Work.Alike ρ N))
      (spread Context.contains c construct b callers).result
      (spread Context.contains d construct' b' callers').result := by
  induction hcallers with
  | nil => exact .ok .nil
  | @cons e e' rest rest' he _ ih =>
    have hsubject := hb.subject he
    rw [spread, spread, hb.count he, hb.position, hb.place he, hc.contains_eq]
    split
    · exact agree_failureAt he _ _ hb.category hb.writable
    · split
      · rw [Logged.result_say_bind, Logged.result_say_bind]
        exact ih
      · generalize b.subject e = s at hsubject
        generalize b'.subject e' = s' at hsubject
        cases hsubject with
        | none => exact agree_failureAt he _ _ rfl rfl
        | some hs =>
          refine ih.bind ?_
          intro works works' hworks
          exact .ok (.cons ⟨rfl, he, hs, hc.descend _⟩ hworks)

/-- Where methods name a parameter alike, the cause for which there is no name depends on the ordinal
alone. -/
theorem Method.NamedAlike.agree {m n : Method} {k : Int} (h : m.NamedAlike k n) :
    Agree Eq (fun _ _ => True) (m.parameterName k) (n.parameterName k) := by
  unfold NamedAlike at h
  generalize hm : m.parameterName k = x at h
  generalize hn : n.parameterName k = y at h
  cases x with
  | ok name =>
    cases y with
    | ok name' => exact .ok trivial
    | error cause => cases h
  | error cause =>
    cases y with
    | ok name => cases h
    | error cause' =>
      refine .error ?_
      unfold parameterName at hm hn
      split at hm
      · cases hm
      · split at hn
        · cases hn
        · rw [hm] at hn
          exact Except.error.inj hn

variable {p q : Program} (h : p.Alike ρ q) (hp : (p.callSites.map CallSite.id).Nodup)
  (hc : c.Alike ρ d) (hsite : site.Alike ρ (p.NamedAlike q) site')
include h hp hc hsite

theorem agree_traceTypeParameter {t u : TypeParameter} (htu : t.Alike ρ u) :
    Agree (Failure.Alike ρ) (Expansion.Alike ρ (p.NamedAlike q))
      (traceTypeParameter Context.contains p site t c).result
      (traceTypeParameter Context.contains q site' u d).result := by
  cases howner : t.ownerKind with
  | type =>
    have howner' : u.ownerKind = .type := htu.ownerKind.trans howner
    unfold traceTypeParameter
    rw [howner, howner']
    exact agree_failureAt hsite _ _ rfl rfl
  | method =>
    have howner' : u.ownerKind = .method := htu.ownerKind.trans howner
    have hid : u.ownerId = ρ.method t.ownerId := by
      rw [htu.ownerId, howner]
      rfl
    have hlookup := h.method? t.ownerId
    rw [← hid] at hlookup
    generalize hm : p.method? t.ownerId = m at hlookup
    generalize hm' : q.method? u.ownerId = m' at hlookup
    cases hlookup with
    | none =>
      unfold traceTypeParameter
      rw [howner, howner', hm, hm']
      exact agree_failureAt hsite _ _ rfl rfl
    | some hmn =>
      rw [traceTypeParameter_eq site c howner hm, traceTypeParameter_eq site' d howner' hm']
      exact (agree_spread hc htu.binding (h.callersOfMethod hp hmn)).bind
        fun _ _ hworks => .ok ⟨hworks, rfl⟩

theorem agree_traceSymbol {t u : TypeSymbol} (htu : t.Alike ρ u) (construct construct' : String) :
    Agree (Failure.Alike ρ) (Expansion.Alike ρ (p.NamedAlike q))
      (traceSymbol Context.contains p site t construct c).result
      (traceSymbol Context.contains q site' u construct' d).result := by
  have hclosed : u.isClosed = t.isClosed := TypeSymbol.Alike.isClosed_eq t htu
  cases htu with
  | parameter hparameter => exact agree_traceTypeParameter h hp hc hsite hparameter
  | named harguments =>
    unfold traceSymbol
    dsimp only
    rw [hclosed]
    split
    · exact agree_failureAt hsite _ _ rfl rfl
    · split
      · exact agree_failureAt hsite _ _ rfl rfl
      · exact .ok ⟨.nil, rfl⟩

omit hp in
theorem agree_traceLocal (reference reference' : Expression) (id : String) :
    Agree (Failure.Alike ρ) (Expansion.Alike ρ (p.NamedAlike q))
      (traceLocal Context.contains p site reference id c).result
      (traceLocal Context.contains q site' reference' (ρ.localVariable id) d).result := by
  have hlookup := h.local? id
  unfold traceLocal
  generalize p.local? id = l at hlookup
  generalize q.local? (ρ.localVariable id) = m at hlookup
  cases hlookup with
  | none => exact agree_failureAt hsite _ _ rfl rfl
  | @some l m hlm =>
    have hinitializer := hlm.initializer
    dsimp only
    generalize l.initializer = e at hinitializer
    generalize m.initializer = f at hinitializer
    cases hinitializer with
    | none => exact agree_failureAt hsite _ _ rfl rfl
    | some hef =>
      have hplace : (⟨.localVariable, m.id, 0⟩ : Place) = ρ.place ⟨.localVariable, l.id, 0⟩ := by
        rw [hlm.id]
        rfl
      dsimp only
      rw [isEmpty_eq_of_forall₂ hlm.assignments, hplace, hc.contains_eq]
      split
      · exact agree_failureAt hsite _ _ rfl rfl
      · split
        · exact .ok ⟨.nil, rfl⟩
        · exact .ok ⟨.cons ⟨rfl, hsite, .value hef, hc.enter _⟩ .nil, rfl⟩

theorem agree_traceParameter (reference reference' : Expression) (methodId : String) {k : Int}
    (hk : p.NamedAlike q k) :
    Agree (Failure.Alike ρ) (Expansion.Alike ρ (p.NamedAlike q))
      (traceParameter Context.contains p site reference methodId k c).result
      (traceParameter Context.contains q site' reference' (ρ.method methodId) k d).result := by
  have hlookup := h.method?_named methodId hk
  generalize hm : p.method? methodId = m at hlookup
  generalize hm' : q.method? (ρ.method methodId) = m' at hlookup
  cases hlookup with
  | none =>
    unfold traceParameter
    rw [hm, hm']
    exact agree_failureAt hsite _ _ rfl rfl
  | @some m m' hboth =>
    obtain ⟨hmn, hnamed⟩ := hboth
    have hcallers := h.callersOfMethod hp hmn
    have hgeneric := rel_find? hcallers fun _ _ he => (CallSite.Alike.isGeneric_eq he).symm
    have hnames := hnamed.agree
    generalize hname : m.parameterName k = name at hnames
    generalize hname' : m'.parameterName k = name' at hnames
    cases hnames with
    | error hcause =>
      subst hcause
      unfold traceParameter
      rw [hm, hm']
      dsimp only
      rw [hname, hname']
      exact agree_failureAt hsite _ _ rfl rfl
    | ok _ =>
      generalize hg : (p.callersOfMethod m).find? CallSite.isGeneric = g at hgeneric
      generalize hg' : (q.callersOfMethod m').find? CallSite.isGeneric = g' at hgeneric
      cases hgeneric with
      | some he =>
        unfold traceParameter
        rw [hm, hm']
        dsimp only
        rw [hname, hname']
        dsimp only
        rw [hg, hg']
        exact agree_failureAt he _ _ rfl rfl
      | none =>
        rw [traceParameter_eq site reference c hm hname hg,
          traceParameter_eq site' reference' d hm' hname' hg']
        exact (agree_spread hc (alike_parameterBinding k _ _) hcallers).bind
          fun _ _ hworks => .ok ⟨hworks, rfl⟩

theorem agree_traceValue {e f : Expression} (hef : e.Alike ρ (p.NamedAlike q) f) :
    Agree (Failure.Alike ρ) (Expansion.Alike ρ (p.NamedAlike q))
      (traceValue Context.contains p site e c).result
      (traceValue Context.contains q site' f d).result := by
  cases hef with
  | typeOf htu => exact agree_traceSymbol h hp hc hsite htu _ _
  | @getType _ _ r s hstatic =>
    unfold traceValue
    dsimp only
    generalize r.staticType = t at hstatic
    generalize s.staticType = u at hstatic
    cases hstatic with
    | none => exact agree_failureAt hsite _ _ rfl rfl
    | some htu => exact agree_traceSymbol h hp hc hsite htu _ _
  | localRef => exact agree_traceLocal h hc hsite _ _ _
  | parameterRef hk => exact agree_traceParameter h hp hc hsite _ _ _ hk
  | untraced => exact agree_failureAt hsite _ _ rfl rfl

end Steps

/-! ## Searches -/

section Searches
variable {ρ : Renaming} {p q : Program} (h : p.Alike ρ q) (hp : (p.callSites.map CallSite.id).Nodup)
include h hp

theorem agree_expand {w v : Work} (hwv : w.Alike ρ (p.NamedAlike q) v) :
    Agree (Failure.Alike ρ) (Expansion.Alike ρ (p.NamedAlike q)) (w.expand p).result
      (v.expand q).result := by
  have hsubject := hwv.subject
  unfold Work.expand Work.expandUnder
  generalize w.subject = s at hsubject
  generalize v.subject = s' at hsubject
  cases hsubject with
  | symbol htu => exact agree_traceSymbol h hp hwv.context hwv.site htu _ _
  | value hef => exact agree_traceValue h hp hwv.context hwv.site hef
  | nothing => exact agree_failureAt hwv.site _ _ rfl rfl

omit h hp in
theorem forall₂_enqueue {N : Int → Prop} (depth : ℕ) {successors successors' queue queue' : List Work}
    (hs : List.Forall₂ (Work.Alike ρ N) successors successors')
    (hq : List.Forall₂ (Work.Alike ρ N) queue queue') :
    List.Forall₂ (Work.Alike ρ N) (Search.enqueue depth successors queue)
      (Search.enqueue depth successors' queue') := by
  unfold Search.enqueue
  refine List.rel_append (List.rel_append (List.rel_filter ?_ hs) hq) (List.rel_filter ?_ hs)
  · intro w v hwv
    dsimp only
    rw [hwv.context.depth]
  · intro w v hwv
    dsimp only
    rw [hwv.context.depth]

omit h hp in
theorem Search.Alike.grow {N : Int → Prop} {s t : Search} (hst : s.Alike ρ N t) {w v : Work}
    (hwv : w.Alike ρ N v) {rest rest' : List Work} (hrest : List.Forall₂ (Work.Alike ρ N) rest rest')
    {x y : Expansion} (hxy : x.Alike ρ N y) : (s.grow w rest x).Alike ρ N (t.grow v rest' y) := by
  unfold Search.grow
  rw [hwv.context.depth, hwv.place, hst.expanded, hst.found, hxy.found]
  exact ⟨forall₂_enqueue _ hxy.successors hrest, rfl, rfl⟩

theorem agree_advance (limit : Int) {s t : Search} (hst : s.Alike ρ (p.NamedAlike q) t) {w v : Work}
    (hwv : w.Alike ρ (p.NamedAlike q) v) {rest rest' : List Work}
    (hrest : List.Forall₂ (Work.Alike ρ (p.NamedAlike q)) rest rest') :
    Agree (Failure.Alike ρ) (Search.Alike ρ (p.NamedAlike q)) (s.advance p limit w rest).result
      (t.advance q limit v rest').result := by
  unfold Search.advance Search.advanceUnder
  rw [hst.expanded, hwv.place, ρ.contains_places, hwv.context.depth]
  split
  · exact .ok ⟨hrest, rfl, hst.found⟩
  · split
    · exact agree_failureAt hwv.site _ _ rfl rfl
    · refine (agree_expand h hp hwv).bind ?_
      intro x y hxy
      exact .ok (hst.grow hwv hrest hxy)

theorem agree_run (limit : Int) (fuel : ℕ) {s t : Search} (hst : s.Alike ρ (p.NamedAlike q) t) :
    Agree (Failure.Alike ρ) (Search.Alike ρ (p.NamedAlike q)) (Search.run p limit fuel s).result
      (Search.run q limit fuel t).result := by
  induction fuel generalizing s t with
  | zero => exact .ok hst
  | succ fuel ih =>
    have hqueue := hst.queue
    rw [Search.run, Search.run, Search.runUnder, Search.runUnder]
    generalize s.queue = work at hqueue
    generalize t.queue = work' at hqueue
    cases hqueue with
    | nil => exact .ok hst
    | cons hwv hrest => exact (agree_advance h hp limit hst hwv hrest).bind fun _ _ hst' => ih hst'

omit hp in
theorem searchBound_eq {site site' : CallSite} (hsite : site.Alike ρ (p.NamedAlike q) site') :
    q.searchBound site' = p.searchBound site := by
  have hplaces : ∀ {c d : CallSite}, c.Alike ρ (p.NamedAlike q) d → d.placeCount = c.placeCount := by
    intro c d hcd
    unfold CallSite.placeCount
    rw [hcd.typeArguments.length_eq, hcd.arguments.length_eq]
  have hcount : q.placeCount = p.placeCount := by
    have hsites := h.callSites
    unfold Program.placeCount
    rw [h.locals.length_eq]
    generalize p.callSites = cs at hsites
    generalize q.callSites = ds at hsites
    induction hsites with
    | nil => rfl
    | cons hcd _ ih => rw [List.foldr_cons, List.foldr_cons, ih, hplaces hcd]
  unfold Program.searchBound
  rw [hcount, hplaces hsite, h.callSites.length_eq]

omit h hp in
theorem agree_seed {N : Int → Prop} {site site' : CallSite} (hsite : site.Alike ρ N site')
    (api : Option Api) : Agree (Failure.Alike ρ) (Work.Alike ρ N) (seed site api) (seed site' api) := by
  have hstart : ∀ kind (i : Int), ρ.holder kind = ρ.callSite →
      (⟨kind, site'.id, i⟩ : Place) = ρ.place ⟨kind, site.id, i⟩ := by
    intro kind i hkind
    unfold Renaming.place
    rw [hkind, hsite.id]
  have hcontext : ({ origin := site } : Context).Alike ρ { origin := site' } := ⟨rfl, rfl⟩
  unfold seed
  dsimp only
  rw [hsite.isGeneric_eq, hstart .typeArgument _ rfl, hstart .argument _ rfl,
    isEmpty_eq_of_forall₂ hsite.arguments, ← hsite.typeArguments.length_eq,
    ← hsite.arguments.length_eq]
  split
  · split
    · exact .error ⟨rfl, rfl, hsite.id⟩
    · exact .ok ⟨rfl, hsite, hsite.typeArgumentAt _, hcontext.enter _⟩
  · split
    · exact .error ⟨rfl, rfl, hsite.id⟩
    · split
      · exact .error ⟨rfl, rfl, hsite.id⟩
      · have hvalue := rel_at? hsite.arguments ((api.map Api.valueArgumentIndex).getD 0)
        generalize at? site.arguments _ = e at hvalue
        generalize at? site'.arguments _ = f at hvalue
        cases hvalue with
        | some hef => exact .ok ⟨rfl, hsite, .value hef, hcontext.enter _⟩
        | none => exact .error ⟨rfl, rfl, hsite.id⟩

theorem agree_resolve (limit : Int) {site site' : CallSite} (hsite : site.Alike ρ (p.NamedAlike q) site')
    (api : Option Api) :
    Agree (Failure.Alike ρ) Eq (resolve p limit site api).result (resolve q limit site' api).result := by
  unfold resolve resolveUnder
  rw [searchBound_eq h hsite]
  refine Agree.bind (agree_seed hsite api) ?_
  intro w v hwv
  have hstart : Search.Alike ρ (p.NamedAlike q) { queue := [w] } { queue := [v] } :=
    ⟨.cons hwv .nil, rfl, rfl⟩
  refine (agree_run h hp limit _ hstart).bind ?_
  intro s t hst
  rw [Logged.result_say_bind, Logged.result_say_bind]
  exact .ok hst.found.symm

end Searches

end TypeOrigins
