import StyleShield.Text.Basic

/-! Regular expressions that are tried in order: of two choices the left one first, of a run of
characters the longest part first. An expression leads from a spot in a text to the spots where it
can end, in the order in which they are tried, and the first of them is the match. A run after
which nothing can begin with one of its characters is taken whole (`flatMap_leftovers`), so what
follows it does not have to be tried again. -/
namespace StyleShield

inductive Expression where
  | nothing
  | one (fits : Char → Bool)
  | run (fits : Char → Bool)
  | both (first second : Expression)
  | either (left right : Expression)
  | group (number : Nat) (body : Expression)
  | again (number : Nat)
  | ahead (body : Expression)
  | lineEnd

namespace Expression

/-- A place in a text: what is left of it, and what the groups matched on the way. -/
structure Spot where
  rest : Text
  groups : List (Nat × Text)

namespace Spot

def start (s : Text) : Spot := ⟨s, []⟩

def moveTo (s : Spot) (rest : Text) : Spot := ⟨rest, s.groups⟩

def group? (s : Spot) (number : Nat) : Option Text := (s.groups.find? fun g => g.1 = number).map Prod.snd

def since (s e : Spot) : Text := s.rest.take (s.rest.length - e.rest.length)

/-- The end of a line stands before a newline and at the end of the text. -/
def isAtLineEnd (s : Spot) : Bool := s.rest = [] ∨ s.rest.head? = some '\n'

end Spot

/-- What a run can leave over, the least first. -/
def leftovers (fits : Char → Bool) : Text → List Text
  | [] => [[]]
  | c :: s => if fits c then leftovers fits s ++ [c :: s] else [c :: s]

/-- Where a match that starts at a spot can end. -/
def ends : Expression → Spot → List Spot
  | nothing, s => [s]
  | one fits, s => match s.rest with
    | c :: r => if fits c then [s.moveTo r] else []
    | [] => []
  | run fits, s => (leftovers fits s.rest).map s.moveTo
  | both a b, s => (ends a s).flatMap (ends b)
  | either a b, s => ends a s ++ ends b s
  | group n a, s => (ends a s).map fun e => { e with groups := (n, s.since e) :: e.groups }
  | again n, s => match (s.group? n).bind fun t => Text.after? t s.rest with
    | some r => [s.moveTo r]
    | none => []
  | ahead a, s => ((ends a s).head?.map fun e => ⟨s.rest, e.groups⟩).toList
  | lineEnd, s => if s.isAtLineEnd then [s] else []

def sequence (parts : List Expression) : Expression := parts.foldr both nothing

def word (w : Text) : Expression := sequence (w.map fun c => one (· == c))

def replaceFirst (e : Expression) (new : Text) : Text → Text
  | [] => match e.ends (.start []) with
    | m :: _ => new ++ m.rest
    | [] => []
  | c :: s => match e.ends (.start (c :: s)) with
    | m :: _ => new ++ m.rest
    | [] => c :: replaceFirst e new s

variable {fits : Char → Bool} {s : Spot}

theorem ends_sequence_cons (a : Expression) (parts : List Expression) (s : Spot) :
    (sequence (a :: parts)).ends s = (a.ends s).flatMap (sequence parts).ends := rfl

@[simp] theorem ends_sequence_nil (s : Spot) : (sequence []).ends s = [s] := rfl

@[simp] theorem ends_sequence_singleton (a : Expression) (s : Spot) : (sequence [a]).ends s = a.ends s := by
  rw [ends_sequence_cons]
  exact List.flatMap_singleton' (a.ends s)

@[simp] theorem ends_one_nil (gs : List (Nat × Text)) : (one fits).ends ⟨[], gs⟩ = [] := rfl

@[simp] theorem ends_one_cons (c : Char) (r : Text) (gs : List (Nat × Text)) :
    (one fits).ends ⟨c :: r, gs⟩ = if fits c then [⟨r, gs⟩] else [] := rfl

@[simp] theorem ends_either (a b : Expression) (s : Spot) : (either a b).ends s = a.ends s ++ b.ends s := rfl

@[simp] theorem ends_nothing (s : Spot) : nothing.ends s = [s] := rfl

/-- Of what a run can leave over, only the least is of use if nothing goes on inside the run. -/
theorem flatMap_leftovers {α : Type} {f : Text → List α} (h : ∀ c r, fits c = true → f (c :: r) = [])
    (t : Text) : (leftovers fits t).flatMap f = f (t.dropWhile fits) := by
  induction t with
  | nil => simp [leftovers]
  | cons c t ih =>
    by_cases hc : fits c = true
    · simp [leftovers, hc, ih, h c t hc]
    · simp [leftovers, hc]

theorem flatMap_ends_run {α : Type} {f : Spot → List α}
    (h : ∀ c r, fits c = true → f (s.moveTo (c :: r)) = []) :
    ((run fits).ends s).flatMap f = f (s.moveTo (s.rest.dropWhile fits)) := by
  have hf : ∀ c r, fits c = true → (f ∘ s.moveTo) (c :: r) = [] := h
  rw [ends, List.flatMap_map]
  exact flatMap_leftovers hf s.rest

theorem since_dropWhile (s : Spot) : s.since (s.moveTo (s.rest.dropWhile fits)) = s.rest.takeWhile fits := by
  have happend : s.rest.takeWhile fits ++ s.rest.dropWhile fits = s.rest := List.takeWhile_append_dropWhile
  have hlength : s.rest.length = (s.rest.takeWhile fits).length + (s.rest.dropWhile fits).length := by
    rw [← List.length_append, happend]
  have hcount : s.rest.length - (s.rest.dropWhile fits).length = (s.rest.takeWhile fits).length := by omega
  calc s.rest.take (s.rest.length - (s.rest.dropWhile fits).length)
      = (s.rest.takeWhile fits ++ s.rest.dropWhile fits).take (s.rest.takeWhile fits).length := by
        rw [hcount, happend]
    _ = s.rest.takeWhile fits := List.take_left

theorem flatMap_ends_group_run {α : Type} {f : Spot → List α} {n : Nat}
    (h : ∀ c r t, fits c = true → f ⟨c :: r, (n, t) :: s.groups⟩ = []) :
    ((group n (run fits)).ends s).flatMap f =
      f ⟨s.rest.dropWhile fits, (n, s.rest.takeWhile fits) :: s.groups⟩ := by
  rw [ends, List.flatMap_map, flatMap_ends_run fun c r hc => h c r _ hc, since_dropWhile]
  rfl

theorem ends_word (w : Text) (s : Spot) : (word w).ends s = ((Text.after? w s.rest).map s.moveTo).toList := by
  induction w generalizing s with
  | nil => rfl
  | cons c w ih =>
    rw [word, List.map_cons, ends_sequence_cons]
    cases hs : s.rest with
    | nil => simp [ends, hs, Text.after?]
    | cons d r =>
      by_cases hd : d = c
      · have hrest := ih (s.moveTo r)
        rw [word] at hrest
        simp only [ends, hs, hd, beq_self_eq_true, if_true, List.flatMap_cons, List.flatMap_nil, List.append_nil,
          Text.after?]
        exact hrest
      · have hd' : ¬ c = d := fun h => hd h.symm
        simp [ends, hs, hd, hd', Text.after?]

/-! Ends by membership: what an expression matches is cut off the front of the text, part by part. -/

section Members

variable {t r w : Text} {gs : List (Nat × Text)} {e : Spot} {parts : List Expression}

theorem mem_leftovers : r ∈ leftovers fits t ↔ ∃ w, (∀ c ∈ w, fits c = true) ∧ t = w ++ r := by
  induction t with
  | nil =>
    rw [leftovers, List.mem_singleton]
    constructor
    · rintro rfl
      exact ⟨[], by simp, rfl⟩
    · rintro ⟨w, -, h⟩
      exact (List.append_eq_nil_iff.1 h.symm).2
  | cons c t ih =>
    have hsplit : (∃ w, (∀ d ∈ w, fits d = true) ∧ c :: t = w ++ r) ↔
        r = c :: t ∨ fits c = true ∧ ∃ w, (∀ d ∈ w, fits d = true) ∧ t = w ++ r := by
      constructor
      · rintro ⟨w, hw, ht⟩
        rcases List.append_eq_cons_iff.1 ht.symm with ⟨-, hr⟩ | ⟨v, rfl, rfl⟩
        · exact .inl hr
        · exact .inr ⟨hw c (by simp), v, fun d hd => hw d (by simp [hd]), rfl⟩
      · rintro (rfl | ⟨hc, w, hw, rfl⟩)
        · exact ⟨[], by simp, rfl⟩
        · exact ⟨c :: w, List.forall_mem_cons.2 ⟨hc, hw⟩, rfl⟩
    rw [hsplit, ← ih]
    by_cases hc : fits c = true
    · simp [leftovers, hc, or_comm]
    · simp [leftovers, hc]

theorem since_append (w : Text) (gs gs' : List (Nat × Text)) : (⟨w ++ r, gs⟩ : Spot).since ⟨r, gs'⟩ = w := by
  have hcount : (w ++ r).length - r.length = w.length := by simp
  rw [Spot.since, hcount, List.take_left]

theorem mem_ends_one : e ∈ (one fits).ends ⟨t, gs⟩ ↔ ∃ c r, fits c = true ∧ t = c :: r ∧ e = ⟨r, gs⟩ := by
  cases t with
  | nil => simp
  | cons c t =>
    rw [ends_one_cons]
    constructor
    · intro h
      by_cases hc : fits c = true
      · rw [if_pos hc, List.mem_singleton] at h
        exact ⟨c, t, hc, rfl, h⟩
      · simp [hc] at h
    · rintro ⟨d, r, hd, ht, rfl⟩
      obtain ⟨rfl, rfl⟩ := List.cons.inj ht
      rw [if_pos hd, List.mem_singleton]

theorem mem_ends_one_run : e ∈ (both (one fits) (run fits)).ends ⟨t, gs⟩ ↔
    ∃ w r, w ≠ [] ∧ (∀ c ∈ w, fits c = true) ∧ t = w ++ r ∧ e = ⟨r, gs⟩ := by
  have hlist : (both (one fits) (run fits)).ends ⟨t, gs⟩ =
      ((one fits).ends ⟨t, gs⟩).flatMap fun s => (leftovers fits s.rest).map s.moveTo := rfl
  simp only [hlist, List.mem_flatMap, mem_ends_one, List.mem_map, mem_leftovers]
  constructor
  · rintro ⟨-, ⟨c, u, hc, rfl, rfl⟩, r, ⟨w, hw, rfl⟩, rfl⟩
    exact ⟨c :: w, r, List.cons_ne_nil c w, List.forall_mem_cons.2 ⟨hc, hw⟩, rfl, rfl⟩
  · rintro ⟨w, r, hne, hw, rfl, rfl⟩
    obtain ⟨c, w, rfl⟩ := List.exists_cons_of_ne_nil hne
    rw [List.forall_mem_cons] at hw
    exact ⟨_, ⟨c, w ++ r, hw.1, rfl, rfl⟩, r, ⟨w, hw.2, rfl⟩, rfl⟩

theorem mem_ends_sequence_run : e ∈ (sequence (run fits :: parts)).ends ⟨t, gs⟩ ↔
    ∃ w r, (∀ c ∈ w, fits c = true) ∧ t = w ++ r ∧ e ∈ (sequence parts).ends ⟨r, gs⟩ := by
  have hrun : (run fits).ends ⟨t, gs⟩ = (leftovers fits t).map fun r => ⟨r, gs⟩ := rfl
  simp only [ends_sequence_cons, hrun, List.mem_flatMap, List.mem_map, mem_leftovers]
  constructor
  · rintro ⟨-, ⟨r, ⟨w, hw, rfl⟩, rfl⟩, he⟩
    exact ⟨w, r, hw, rfl, he⟩
  · rintro ⟨w, r, hw, rfl, he⟩
    exact ⟨_, ⟨r, ⟨w, hw, rfl⟩, rfl⟩, he⟩

theorem mem_ends_sequence_word : e ∈ (sequence (word w :: parts)).ends ⟨t, gs⟩ ↔
    ∃ r, t = w ++ r ∧ e ∈ (sequence parts).ends ⟨r, gs⟩ := by
  simp only [ends_sequence_cons, ends_word, List.mem_flatMap, Option.mem_toList, Option.map_eq_some_iff,
    Text.after?_eq_some_iff]
  constructor
  · rintro ⟨-, ⟨r, rfl, rfl⟩, he⟩
    exact ⟨r, rfl, he⟩
  · rintro ⟨r, rfl, he⟩
    exact ⟨_, ⟨r, rfl, rfl⟩, he⟩

theorem mem_ends_sequence_group_run {n : Nat} :
    e ∈ (sequence (group n (both (one fits) (run fits)) :: parts)).ends ⟨t, gs⟩ ↔
      ∃ w r, w ≠ [] ∧ (∀ c ∈ w, fits c = true) ∧ t = w ++ r ∧ e ∈ (sequence parts).ends ⟨r, (n, w) :: gs⟩ := by
  have hgroup : (group n (both (one fits) (run fits))).ends ⟨t, gs⟩ = ((both (one fits) (run fits)).ends ⟨t, gs⟩).map
      fun m => { m with groups := (n, Spot.since ⟨t, gs⟩ m) :: m.groups } := rfl
  simp only [ends_sequence_cons, hgroup, List.mem_flatMap, List.mem_map, mem_ends_one_run]
  constructor
  · rintro ⟨-, ⟨-, ⟨w, r, hne, hw, rfl, rfl⟩, rfl⟩, he⟩
    rw [since_append] at he
    exact ⟨w, r, hne, hw, rfl, he⟩
  · rintro ⟨w, r, hne, hw, rfl, he⟩
    refine ⟨_, ⟨_, ⟨w, r, hne, hw, rfl, rfl⟩, rfl⟩, ?_⟩
    rw [since_append]
    exact he

theorem mem_ends_sequence_optional {a : Expression} {s : Spot} : e ∈ (sequence (either a nothing :: parts)).ends s ↔
    e ∈ (sequence (a :: parts)).ends s ∨ e ∈ (sequence parts).ends s := by
  simp [ends_sequence_cons]

end Members

end Expression
end StyleShield
