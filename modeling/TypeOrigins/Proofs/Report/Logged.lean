import TypeOrigins.Report.Event

/-! # Results of computations that say events

The result of a `Logged` computation, read off step by step: a sequence ends with a value if both
parts do, and with an error if the first part does, or the second on the value of the first. -/

namespace TypeOrigins.Logged
set_option autoImplicit false

variable {ε α β : Type}

@[simp] theorem result_ok (a : α) : (ok a : Logged ε α).result = .ok a := rfl

@[simp] theorem result_fail (e : ε) : (fail e : Logged ε α).result = .error e := rfl

@[simp] theorem result_pure (a : α) : (pure a : Logged ε α).result = .ok a := rfl

@[simp] theorem result_say (e : Event) : (say e : Logged ε Unit).result = .ok () := rfl

@[simp] theorem result_lift (r : Except ε α) : (lift r).result = r := rfl

theorem result_mapError {δ : Type} (f : ε → δ) (x : Logged ε α) :
    (x.mapError f).result = x.result.mapError f := rfl

theorem result_bind_of_ok {x : Logged ε α} {a : α} (f : α → Logged ε β) (h : x.result = .ok a) :
    (x >>= f).result = (f a).result := by
  change (bind x f).result = _
  unfold bind
  rw [h]

theorem result_bind_of_error {x : Logged ε α} {e : ε} (f : α → Logged ε β)
    (h : x.result = .error e) : (x >>= f).result = .error e := by
  change (bind x f).result = _
  unfold bind
  rw [h]

@[simp] theorem result_say_bind (e : Event) (f : Unit → Logged ε β) :
    (say e >>= f).result = (f ()).result := result_bind_of_ok f rfl

theorem events_bind_of_ok {x : Logged ε α} {a : α} (f : α → Logged ε β) (h : x.result = .ok a) :
    (x >>= f).events = x.events ++ (f a).events := by
  change (bind x f).events = _
  unfold bind
  rw [h]

theorem bind_congr {x : Logged ε α} {f g : α → Logged ε β}
    (h : ∀ a, x.result = .ok a → f a = g a) : x >>= f = x >>= g := by
  change bind x f = bind x g
  unfold bind
  split
  · next a ha => rw [h a ha]
  · rfl

theorem result_bind_eq_ok {x : Logged ε α} {f : α → Logged ε β} {b : β} :
    (x >>= f).result = .ok b ↔ ∃ a, x.result = .ok a ∧ (f a).result = .ok b := by
  cases hx : x.result with
  | ok a =>
    rw [result_bind_of_ok f hx]
    constructor
    · intro h
      exact ⟨a, rfl, h⟩
    · rintro ⟨a', ha, h⟩
      cases ha
      exact h
  | error e =>
    rw [result_bind_of_error f hx]
    constructor
    · intro h
      cases h
    · rintro ⟨a', ha, _⟩
      cases ha

theorem result_bind_eq_error {x : Logged ε α} {f : α → Logged ε β} {e : ε} :
    (x >>= f).result = .error e ↔
      x.result = .error e ∨ ∃ a, x.result = .ok a ∧ (f a).result = .error e := by
  cases hx : x.result with
  | ok a =>
    rw [result_bind_of_ok f hx]
    constructor
    · intro h
      exact Or.inr ⟨a, rfl, h⟩
    · rintro (h | ⟨a', ha, h⟩)
      · cases h
      · cases ha
        exact h
  | error e' =>
    rw [result_bind_of_error f hx]
    constructor
    · intro h
      cases h
      exact Or.inl rfl
    · rintro (h | ⟨a', ha, _⟩)
      · cases h
        rfl
      · cases ha

end TypeOrigins.Logged
