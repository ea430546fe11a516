import StyleShield.Log
import StyleShield.Fault

/-! A run is a value with the events on the way to it: what was logged, what a
compiler was given, what was printed and written. It ends in a value or in a fault,
and the events up to a fault are kept. -/
namespace StyleShield

inductive Event where
  | logged (record : Record)
  | compiled (source : Text) (path : Path)
  | printed (text : Text)
  | complained (text : Text)
  | wrote (target : Path) (contents : Bytes)
  deriving DecidableEq

def Event.records (es : List Event) : List Record :=
  es.filterMap fun
    | .logged r => some r
    | _ => none

def Event.sources (es : List Event) : List Text :=
  es.filterMap fun
    | .compiled s _ => some s
    | _ => none

structure Run (α : Type) where
  events : List Event
  result : Except Fault α

namespace Run

variable {α β : Type}

protected def pure (a : α) : Run α := ⟨[], .ok a⟩

protected def bind (r : Run α) (f : α → Run β) : Run β :=
  match r.result with
  | .ok a => let s := f a; ⟨r.events ++ s.events, s.result⟩
  | .error e => ⟨r.events, .error e⟩

instance : Monad Run where
  pure := Run.pure
  bind := Run.bind

def fail (f : Fault) : Run α := ⟨[], .error f⟩

def ofExcept (x : Except Fault α) : Run α := ⟨[], x⟩

def emit (e : Event) : Run Unit := ⟨[e], .ok ()⟩

def log (source : Source) (level : Level) (message : Text) : Run Unit :=
  emit (.logged ⟨level, source, message⟩)

@[simp] theorem pure_eq (a : α) : (pure a : Run α) = ⟨[], .ok a⟩ := rfl
@[simp] theorem emit_bind (e : Event) (f : Unit → Run β) :
    (emit e >>= f) = ⟨e :: (f ()).events, (f ()).result⟩ := rfl
@[simp] theorem fail_bind (e : Fault) (f : α → Run β) : ((fail e : Run α) >>= f) = fail e := rfl
@[simp] theorem ofExcept_ok_bind (a : α) (f : α → Run β) : (ofExcept (.ok a) >>= f) = f a := rfl
@[simp] theorem ofExcept_error_bind (e : Fault) (f : α → Run β) :
    ((ofExcept (.error e) : Run α) >>= f) = fail e := rfl

theorem bind_ok {r : Run α} {a : α} (h : r.result = .ok a) (f : α → Run β) :
    (r >>= f) = ⟨r.events ++ (f a).events, (f a).result⟩ := by
  change Run.bind r f = _
  simp [Run.bind, h]

theorem bind_error {r : Run α} {e : Fault} (h : r.result = .error e) (f : α → Run β) :
    (r >>= f) = ⟨r.events, .error e⟩ := by
  change Run.bind r f = _
  simp [Run.bind, h]

protected theorem id_map (r : Run α) : id <$> r = r := by
  obtain ⟨es, x⟩ := r
  change Run.bind _ _ = _
  cases x <;> simp [Run.bind, Run.pure]

protected theorem pure_bind (a : α) (f : α → Run β) : (pure a >>= f) = f a := by
  change Run.bind (Run.pure a) f = f a
  simp [Run.bind, Run.pure]

protected theorem bind_assoc {γ : Type} (r : Run α) (f : α → Run β) (g : β → Run γ) :
    (r >>= f >>= g) = (r >>= fun a => f a >>= g) := by
  obtain ⟨es, x⟩ := r
  change Run.bind (Run.bind _ f) g = Run.bind _ fun a => Run.bind (f a) g
  cases x with
  | error e => simp [Run.bind]
  | ok a => cases h : (f a).result <;> simp [Run.bind, h]

instance : LawfulMonad Run := LawfulMonad.mk' Run Run.id_map Run.pure_bind Run.bind_assoc

end Run
end StyleShield
