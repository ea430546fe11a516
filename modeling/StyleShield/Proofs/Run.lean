import StyleShield.Run

/-! What a result or a run of two steps says of its steps, at which item of a list it fails, which faults
it can have, and which events are seen from outside. A quiet run only logs and complains; what is made of
quiet steps is quiet. -/
namespace StyleShield

section

variable {ε α β : Type} {x : Except ε α}

theorem bind_eq_ok_iff {f : α → Except ε β} {b : β} : (x >>= f) = .ok b ↔ ∃ a, x = .ok a ∧ f a = .ok b := by
  cases x with
  | error e => simp [bind, Except.bind]
  | ok a => simp [bind, Except.bind]

theorem bind_eq_error_iff {f : α → Except ε β} {e : ε} :
    (x >>= f) = .error e ↔ x = .error e ∨ ∃ a, x = .ok a ∧ f a = .error e := by
  cases x with
  | error e => simp [bind, Except.bind]
  | ok a => simp [bind, Except.bind]

end

section

variable {ε α β γ : Type} {f : α → Except ε β} {x : α} {xs : List α} {e : ε}

/-- The fault of the first item at which a function fails. -/
def FailsFirst (f : α → Except ε β) (xs : List α) (e : ε) : Prop :=
  ∃ before x after, xs = before ++ x :: after ∧ (∀ y ∈ before, ∃ b, f y = .ok b) ∧ f x = .error e

theorem not_failsFirst_nil : ¬ FailsFirst f [] e := by
  rintro ⟨before, x, after, h, -⟩
  simp at h

theorem failsFirst_cons : FailsFirst f (x :: xs) e ↔ f x = .error e ∨ (∃ b, f x = .ok b) ∧ FailsFirst f xs e := by
  constructor
  · rintro ⟨before, y, after, h, hbefore, hy⟩
    cases before with
    | nil =>
      obtain ⟨rfl, -⟩ := List.cons.inj h
      exact .inl hy
    | cons z before =>
      obtain ⟨rfl, rfl⟩ := List.cons.inj h
      rw [List.forall_mem_cons] at hbefore
      exact .inr ⟨hbefore.1, before, y, after, rfl, hbefore.2, hy⟩
  · rintro (h | ⟨hx, before, y, after, rfl, hbefore, hy⟩)
    · exact ⟨[], x, xs, rfl, by simp, h⟩
    · exact ⟨x :: before, y, after, rfl, List.forall_mem_cons.2 ⟨hx, hbefore⟩, hy⟩

/-- What fails with the first item or else with the rest fails with the first item that does. -/
theorem eq_error_iff_failsFirst {F : List α → Except ε γ} (hnil : ∀ e, F [] ≠ .error e)
    (hcons : ∀ x xs e, F (x :: xs) = .error e ↔ f x = .error e ∨ (∃ b, f x = .ok b) ∧ F xs = .error e) :
    F xs = .error e ↔ FailsFirst f xs e := by
  induction xs with
  | nil => exact iff_of_false (hnil e) not_failsFirst_nil
  | cons x xs ih => rw [hcons, failsFirst_cons, ih]

end

def FailsOnly {α : Type} (kind : Fault → Prop) (x : Except Fault α) : Prop := ∀ f, x = .error f → kind f

namespace FailsOnly

variable {α β : Type} {kind kind' : Fault → Prop} {x : Except Fault α}

theorem ok (a : α) : FailsOnly kind (.ok a) := fun _ h => by simp at h

theorem error {f : Fault} (h : kind f) : FailsOnly kind (.error f : Except Fault α) := fun _ hf => by
  obtain rfl := Except.error.inj hf
  exact h

theorem mono (hx : FailsOnly kind x) (h : ∀ f, kind f → kind' f) : FailsOnly kind' x :=
  fun f hf => h f (hx f hf)

theorem bind {f : α → Except Fault β} (hx : FailsOnly kind x) (hf : ∀ a, x = .ok a → FailsOnly kind (f a)) :
    FailsOnly kind (x >>= f) := by
  intro e he
  rcases bind_eq_error_iff.1 he with h | ⟨a, ha, h⟩
  · exact hx e h
  · exact hf a ha e h

theorem map {f : α → β} (hx : FailsOnly kind x) : FailsOnly kind (x.map f) := by
  intro e he
  cases x with
  | error e' => exact hx e (congrArg Except.error (Except.error.inj he))
  | ok a => simp [Except.map] at he

theorem ite {c : Prop} [Decidable c] {y : Except Fault α} (hx : FailsOnly kind x) (hy : FailsOnly kind y) :
    FailsOnly kind (if c then x else y) := by
  split
  · exact hx
  · exact hy

end FailsOnly

namespace Event

/-- Calls of compilers, and outputs. -/
def isEffect : Event → Bool
  | compiled _ _ | printed _ | wrote _ _ => true
  | logged _ | complained _ => false

def effects (es : List Event) : List Event := es.filter isEffect

@[simp] theorem effects_nil : effects [] = [] := rfl

@[simp] theorem effects_append (es es' : List Event) : effects (es ++ es') = effects es ++ effects es' :=
  List.filter_append es es'

@[simp] theorem effects_logged (r : Record) (es : List Event) : effects (logged r :: es) = effects es := rfl

@[simp] theorem effects_complained (s : Text) (es : List Event) : effects (complained s :: es) = effects es := rfl

theorem flatMap_effects {α : Type} {f : Event → List α} (hf : ∀ e, isEffect e = false → f e = []) (es : List Event) :
    (effects es).flatMap f = es.flatMap f := by
  induction es with
  | nil => rfl
  | cons e es ih =>
    rw [List.flatMap_cons, ← ih]
    by_cases he : isEffect e = true
    · simp [effects, he]
    · rw [Bool.not_eq_true] at he
      simp [effects, he, hf e he]

end Event

namespace Run

variable {α β : Type}

theorem map_eq (f : α → β) (r : Run α) : f <$> r = ⟨r.events, r.result.map f⟩ := by
  obtain ⟨es, x⟩ := r
  rw [map_eq_pure_bind]
  cases x with
  | error e => rw [bind_error rfl]; rfl
  | ok a => rw [bind_ok rfl]; simp [Except.map]

theorem bind_result_eq_ok_iff {r : Run α} {f : α → Run β} {b : β} :
    (r >>= f).result = .ok b ↔ ∃ a, r.result = .ok a ∧ (f a).result = .ok b := by
  cases h : r.result with
  | error e => simp [bind_error h]
  | ok a => simp [bind_ok h]

theorem bind_result_eq (r : Run α) (f : α → Run β) : (r >>= f).result = r.result >>= fun a => (f a).result := by
  cases h : r.result with
  | error e => rw [bind_error h]; rfl
  | ok a => rw [bind_ok h]; rfl

theorem ofExcept_bind_ofExcept (x : Except Fault α) (f : α → Except Fault β) :
    (ofExcept x >>= fun a => ofExcept (f a)) = ofExcept (x >>= f) := by
  cases x <;> rfl

/-- A run that is not seen from outside. -/
def Quiet (r : Run α) : Prop := Event.effects r.events = []

theorem quiet_pure (a : α) : (pure a : Run α).Quiet := rfl

theorem quiet_fail (e : Fault) : (fail e : Run α).Quiet := rfl

theorem quiet_ofExcept (x : Except Fault α) : (ofExcept x).Quiet := rfl

theorem quiet_log (source : Source) (level : Level) (message : Text) : (log source level message).Quiet := rfl

theorem Quiet.bind {r : Run α} {f : α → Run β} (hr : r.Quiet) (hf : ∀ a, (f a).Quiet) : (r >>= f).Quiet := by
  cases h : r.result with
  | error e =>
    rw [bind_error h]
    exact hr
  | ok a =>
    have ha : Event.effects (f a).events = [] := hf a
    have hr' : Event.effects r.events = [] := hr
    rw [bind_ok h]
    simp [Quiet, hr', ha]

theorem Quiet.map {r : Run α} (hr : r.Quiet) (f : α → β) : (f <$> r).Quiet := by
  rw [map_eq]
  exact hr

end Run
end StyleShield
