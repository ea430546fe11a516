import Mathlib.Data.List.TakeWhile
import StyleShield.Glob.Parser
import StyleShield.Proofs.Glob.Match
import StyleShield.Proofs.Text.Split

/-! What comes of the end of a glob. The last segment is read on its own, and a backslash in it begins an escape
or ends one, whatever stands before it (`tokens?_escape_space`). -/
namespace StyleShield.Glob

variable {s v w : Text}

namespace CharSet

def markOf : Text → Bool × Text
  | '!' :: r => (true, r)
  | '^' :: r => (true, r)
  | s => (false, s)

def firstOf : Text → List Char × Text
  | ']' :: r => ([']'], r)
  | s => ([], s)

/-- The set whose body begins with `first` and goes on with the text up to a closing bracket. -/
def closed? (negated : Bool) (first s : Text) : Option (CharSet × Text) :=
  match s.dropWhile (· ≠ ']') with
  | [] => none
  | _ :: rest => some (⟨negated, first ++ s.takeWhile (· ≠ ']')⟩, rest)

theorem read?_eq (s : Text) :
    read? s = closed? (markOf s).1 (firstOf (markOf s).2).1 (firstOf (markOf s).2).2 := by
  unfold read?
  split
  rename_i negated q hmark
  have hmarkOf : markOf s = (negated, q) := by
    unfold markOf
    split at hmark <;> simp_all
  split
  rename_i first r hfirst
  have hfirstOf : firstOf q = (first, r) := by
    unfold firstOf
    split at hfirst <;> simp_all
  rw [hmarkOf, hfirstOf]
  rfl

theorem markOf_append (r x : Text) : markOf (r ++ '\\' :: x) = ((markOf r).1, (markOf r).2 ++ '\\' :: x) := by
  cases r with
  | nil => rfl
  | cons c r =>
    rw [List.cons_append]
    unfold markOf
    split <;> simp_all

theorem firstOf_append (r x : Text) : firstOf (r ++ '\\' :: x) = ((firstOf r).1, (firstOf r).2 ++ '\\' :: x) := by
  cases r with
  | nil => rfl
  | cons c r =>
    rw [List.cons_append]
    unfold firstOf
    split <;> simp_all

theorem closed?_append (h : ']' ∉ w) (negated : Bool) (first s : Text) :
    closed? negated first (s ++ w) = (closed? negated first s).map fun p => (p.1, p.2 ++ w) := by
  have hw : w.dropWhile (· ≠ ']') = [] :=
    List.dropWhile_eq_nil_iff.2 fun c hc => decide_eq_true fun he => h (he ▸ hc)
  unfold closed?
  by_cases hs : s.dropWhile (· ≠ ']') = []
  · rw [List.dropWhile_append, hs]
    simp only [List.isEmpty_nil, if_true, hw]
    rfl
  · obtain ⟨d, r, hr⟩ := List.exists_cons_of_ne_nil hs
    have hlength : (s.takeWhile (· ≠ ']')).length ≠ s.length := by
      intro he
      have hall := congrArg List.length (List.takeWhile_append_dropWhile (p := (· ≠ ']')) (l := s))
      rw [hr, List.length_append, he, List.length_cons] at hall
      omega
    rw [List.dropWhile_append, List.takeWhile_append, hr, if_neg hlength]
    rfl

/-- Where a set ends does not hang on a backslash behind it. -/
theorem read?_append {x : Text} (h : ']' ∉ x) (r : Text) :
    read? (r ++ '\\' :: x) = (read? r).map fun p => (p.1, p.2 ++ '\\' :: x) := by
  have hclose : ']' ∉ '\\' :: x := by simpa using h
  simp only [read?_eq, markOf_append, firstOf_append, closed?_append hclose]

end CharSet

section Tokens

/-- A backslash behind the text begins an escape, or the text ends in a backslash that takes it. -/
def SplitsAtEscape (v : Text) : Prop :=
  ∃ ts : List Token,
    (∀ x, ']' ∉ x → tokens? (v ++ '\\' :: x) = (tokens? ('\\' :: x)).map (ts ++ ·)) ∨
    ∀ x, ']' ∉ x → tokens? (v ++ '\\' :: x) = (tokens? x).map (ts ++ ·)

theorem SplitsAtEscape.cons {t : Token} (hw : SplitsAtEscape w)
    (h : ∀ x, ']' ∉ x → tokens? (v ++ '\\' :: x) = (tokens? (w ++ '\\' :: x)).map (t :: ·)) : SplitsAtEscape v := by
  obtain ⟨ts, hts | hts⟩ := hw
  · refine ⟨t :: ts, .inl fun x hx => ?_⟩
    rw [h x hx, hts x hx, Option.map_map]
    rfl
  · refine ⟨t :: ts, .inr fun x hx => ?_⟩
    rw [h x hx, hts x hx, Option.map_map]
    rfl

theorem splitsAtEscape (v : Text) : SplitsAtEscape v := by
  induction v using tokens?.induct with
  | case1 => exact ⟨[], .inl fun x _ => by simp⟩
  | case2 =>
    refine ⟨[.exactly '\\'], .inr fun x _ => ?_⟩
    rw [List.singleton_append, tokens?]
    rfl
  | case3 c r ih => exact ih.cons fun x _ => by rw [List.cons_append, List.cons_append, tokens?]
  | case4 r ih => exact ih.cons fun x _ => by rw [List.cons_append, tokens?]
  | case5 r ih => exact ih.cons fun x _ => by rw [List.cons_append, tokens?]
  | case6 r set r' hread ih =>
    refine ih.cons (t := .oneOf set) fun x hx => ?_
    have hread' : CharSet.read? (r ++ '\\' :: x) = some (set, r' ++ '\\' :: x) := by
      rw [CharSet.read?_append hx, hread]
      rfl
    rw [List.cons_append, tokens?]
    split <;> simp_all
  | case7 r hread ih =>
    refine ih.cons (t := .exactly '[') fun x hx => ?_
    have hread' : CharSet.read? (r ++ '\\' :: x) = none := by
      rw [CharSet.read?_append hx, hread]
      rfl
    rw [List.cons_append, tokens?]
    split <;> simp_all
  | case8 c r hescape hrun hone hset ih =>
    exact ih.cons fun x _ => by rw [List.cons_append, tokens?.eq_7 c _ hescape hrun hone hset]

/-- With an escaped space at its end a segment is read to the end. Without the space it ends in a lone
backslash, or the backslash was escaped itself. -/
theorem tokens?_escape_space (v : Text) : ∃ ts, tokens? (v ++ ['\\', ' ']) = some (ts ++ [.exactly ' ']) ∧
    (tokens? (v ++ ['\\']) = none ∨ tokens? (v ++ ['\\']) = some ts) := by
  have hspace : tokens? [' '] = some [.exactly ' '] := by simp [tokens?]
  have hescape : tokens? ['\\', ' '] = some [.exactly ' '] := by simp [tokens?]
  have hlone : tokens? ['\\'] = none := by rw [tokens?]
  have hnil : tokens? [] = some [] := by rw [tokens?]
  obtain ⟨ts, h | h⟩ := splitsAtEscape v
  · refine ⟨ts, ?_, .inl ?_⟩
    · rw [h [' '] (by simp), hescape]
      rfl
    · rw [h [] (by simp), hlone]
      rfl
  · refine ⟨ts, ?_, .inr ?_⟩
    · rw [h [' '] (by simp), hspace]
      rfl
    · rw [h [] (by simp), hnil]
      simp

end Tokens

section Segments

/-- A segment that is read by its tokens: it is not empty and no star by itself. -/
structure IsName (n : Text) : Prop where
  ne_nil : n ≠ []
  ne_star : n ≠ ['*']
  ne_globstar : n ≠ globstar

theorem isName_of_mem {n : Text} (h : '\\' ∈ n) : IsName n := by
  refine ⟨?_, ?_, ?_⟩
  all_goals
    rintro rfl
    exact absurd h (by decide)

/-- A last segment that is a name adds its tokens and the end to what stands before it. -/
def AddsLast (read : Text → Option (List Part)) : Prop :=
  ∃ lead? : Option (List Part), (∀ ps ∈ lead?, ∀ p ∈ ps, p.IsInner) ∧
    ∀ n, IsName n → read n = lead?.bind fun ps => (tokens? n).map fun ts => ps ++ [.segment ts, .boundary]

theorem AddsLast.append {f g : Text → Option (List Part)} (hg : AddsLast g) (own? : Option (List Part))
    (hown : ∀ ps ∈ own?, ∀ p ∈ ps, p.IsInner)
    (h : ∀ n, IsName n → f n = own?.bind fun own => (g n).map (own ++ ·)) : AddsLast f := by
  obtain ⟨lead?, hinner, hlead⟩ := hg
  refine ⟨own?.bind fun own => lead?.map (own ++ ·), ?_, ?_⟩
  · intro ps hps p hp
    obtain ⟨own, hown', hps⟩ := Option.bind_eq_some_iff.1 hps
    obtain ⟨lead, hlead', rfl⟩ := Option.map_eq_some_iff.1 hps
    rcases List.mem_append.1 hp with hp | hp
    · exact hown own hown' p hp
    · exact hinner lead hlead' p hp
  · intro n hn
    rw [h n hn, hlead n hn]
    cases own? with
    | none => rfl
    | some own =>
      cases lead? with
      | none => rfl
      | some lead => cases tokens? n <;> simp

theorem isInner_of_mem_slashes {needSlash : Bool} {p : Part} (h : p ∈ if needSlash then [Part.slash] else []) :
    p.IsInner := by
  have hp : p = .slash := by cases needSlash <;> simp_all
  simp [hp, Part.IsInner]

theorem addsLast_laterParts? (needSlash : Bool) (ls : List Text) :
    AddsLast fun n => laterParts? needSlash (ls ++ [n]) := by
  induction ls generalizing needSlash with
  | nil =>
    refine ⟨some (if needSlash then [.slash] else []), ?_, ?_⟩
    · intro ps hps p hp
      obtain rfl := Option.mem_some.1 hps
      exact isInner_of_mem_slashes hp
    · intro n hn
      cases ht : tokens? n <;> simp [laterParts?, hn.ne_globstar, hn.ne_star, ht]
  | cons m ls ih =>
    have hrest (n : Text) : (ls ++ [n]).isEmpty = false := by cases ls <;> rfl
    by_cases hglobstar : m = globstar
    · refine (ih true).append (some [.anyBetween]) (by simp [Part.IsInner]) fun n _ => ?_
      rw [List.cons_append, laterParts?, if_pos hglobstar, hrest]
      rfl
    · by_cases hstar : m = ['*']
      · refine (ih true).append (some ((if needSlash then [.slash] else []) ++ [.anySegment])) ?_ fun n _ => ?_
        · intro ps hps p hp
          obtain rfl := Option.mem_some.1 hps
          rcases List.mem_append.1 hp with hp | hp
          · exact isInner_of_mem_slashes hp
          · simp [List.mem_singleton.1 hp, Part.IsInner]
        · rw [List.cons_append, laterParts?, if_neg hglobstar, if_pos hstar, hrest]
          cases laterParts? true (ls ++ [n]) <;> rfl
      · refine (ih true).append ((tokens? m).map fun ts =>
          (if needSlash then [.slash] else []) ++ [.segment ts]) ?_ fun n _ => ?_
        · intro ps hps p hp
          obtain ⟨ts, -, rfl⟩ := Option.map_eq_some_iff.1 hps
          rcases List.mem_append.1 hp with hp | hp
          · exact isInner_of_mem_slashes hp
          · simp [List.mem_singleton.1 hp, Part.IsInner]
        · rw [List.cons_append, laterParts?, if_neg hglobstar, if_neg hstar, hrest]
          cases tokens? m <;> cases laterParts? true (ls ++ [n]) <;> rfl

theorem addsLast_parts? (ls : List Text) : AddsLast fun n => parts? (ls ++ [n]) := by
  cases ls with
  | nil =>
    refine (addsLast_laterParts? false []).append (some []) (by simp) fun n hn => ?_
    rw [List.nil_append, parts?, if_neg hn.ne_globstar]
    simp
  | cons m ls =>
    by_cases hm : m = globstar
    · refine (addsLast_laterParts? false ls).append (some [.anyAbove]) (by simp [Part.IsInner]) fun n _ => ?_
      rw [List.cons_append, parts?, if_pos hm]
      rfl
    · refine (addsLast_laterParts? false (m :: ls)).append (some []) (by simp) fun n _ => ?_
      rw [List.cons_append, parts?, if_neg hm]
      simp

theorem completed_concat (ls : List Text) : ∃ ls', ∀ n, IsName n → completed (ls ++ [n]) = ls' ++ [n] := by
  match ls with
  | [] => exact ⟨[globstar], fun n hn => by simp [completed, hn.ne_globstar, hn.ne_nil]⟩
  | [] :: rest => exact ⟨rest, fun n hn => by simp [completed, hn.ne_nil]⟩
  | [c :: m] => exact ⟨[c :: m], fun n hn => by simp [completed, hn.ne_nil]⟩
  | (c :: m) :: q :: rest =>
    refine ⟨(c :: m) :: q :: rest, fun n hn => ?_⟩
    have hlast : (q :: (rest ++ [n])).getLast? = some n := List.getLast?_concat (l := q :: rest)
    simp [completed, hlast, hn.ne_nil]

theorem collapsed_concat {n : Text} (hn : n ≠ globstar) (ls : List Text) :
    collapsed (ls ++ [n]) = collapsed ls ++ [n] := by
  induction ls using collapsed.induct with
  | case1 a b rest h ih =>
    rw [List.cons_append, List.cons_append, collapsed, if_pos h, collapsed, if_pos h]
    exact ih
  | case2 a b rest h ih =>
    rw [List.cons_append, List.cons_append, collapsed, if_neg h, collapsed, if_neg h, List.cons_append]
    exact congrArg (a :: ·) ih
  | case3 ls hshort =>
    match ls with
    | [] => rfl
    | [a] => simp [collapsed, hn]
    | a :: b :: rest => exact absurd rfl (hshort a b rest)

theorem shape?_concat (ls : List Text) : ∃ read, AddsLast read ∧
    ∀ body n, IsName n → Text.splitOn '/' body = ls ++ [n] → shape? body = (read n).map .parts := by
  obtain ⟨ls', hls'⟩ := completed_concat ls
  refine ⟨_, addsLast_parts? (collapsed ls'), fun body n hn hsplit => ?_⟩
  have hsegments : collapsed (completed (Text.splitOn '/' body)) = collapsed ls' ++ [n] := by
    rw [hsplit, hls' n hn, collapsed_concat hn.ne_globstar]
  have hlast (ms : List Text) (m : Text) (h : collapsed ls' ++ [n] = ms ++ [m]) : n = m :=
    List.singleton_inj.1 (List.append_inj' h rfl).2
  unfold shape?
  simp only [hsegments]
  split
  · rename_i h
    simp at h
  · have hone : collapsed ls' ++ [n] ≠ [globstar] := fun h => hn.ne_globstar (hlast [] globstar h)
    have htwo : collapsed ls' ++ [n] ≠ [globstar, ['*']] := fun h => hn.ne_star (hlast [globstar] ['*'] h)
    have hthree : collapsed ls' ++ [n] ≠ [globstar, ['*'], globstar] :=
      fun h => hn.ne_globstar (hlast [globstar, ['*']] globstar h)
    rw [if_neg hone, if_neg htwo, if_neg hthree]

end Segments

section EscapedSpace

def endingIn (ps : List Part) (ts : List Token) : Shape := .parts (ps ++ [.segment ts, .boundary])

theorem isOrdered_endingIn_space (ps : List Part) (ts : List Token) :
    (endingIn ps (ts ++ [.exactly ' '])).isOrdered = (endingIn ps ts).isOrdered := by
  simp [endingIn, Shape.isOrdered, Part.isOrdered, Token.isOrdered]

/-- A body with an escaped space at its end asks for that space behind what the body without it asks for, if the
latter can be read. -/
theorem shape?_escape_space (u : Text) : ∃ (lead? : Option (List Part)) (ts : List Token),
    (∀ ps ∈ lead?, ∀ p ∈ ps, p.IsInner) ∧
    shape? (u ++ ['\\', ' ']) = lead?.map (endingIn · (ts ++ [.exactly ' '])) ∧
    (shape? (u ++ ['\\']) = none ∨ shape? (u ++ ['\\']) = lead?.map (endingIn · ts)) := by
  obtain ⟨ls, v, hsplit⟩ := Text.splitOn_append_of_notMem '/' u
  obtain ⟨read, ⟨lead?, hinner, hread⟩, hshape⟩ := shape?_concat ls
  obtain ⟨ts, hspace, hbare⟩ := tokens?_escape_space v
  have hbody (w : Text) (hw : '/' ∉ '\\' :: w) : shape? (u ++ '\\' :: w) =
      (lead?.bind fun ps => (tokens? (v ++ '\\' :: w)).map fun ts => ps ++ [.segment ts, .boundary]).map .parts := by
    have hn : IsName (v ++ '\\' :: w) := isName_of_mem (by simp)
    rw [hshape _ _ hn (hsplit _ hw), hread _ hn]
  refine ⟨lead?, ts, hinner, ?_, ?_⟩
  · rw [hbody [' '] (by decide), hspace]
    cases lead? <;> rfl
  · rcases hbare with hnone | hsome
    · refine .inl ?_
      rw [hbody [] (by decide), hnone]
      cases lead? <;> rfl
    · refine .inr ?_
      rw [hbody [] (by decide), hsome]
      cases lead? <;> rfl

variable {ps : List Part} {ts : List Token}

theorem fits_before_space (hps : ∀ p ∈ ps, p.IsInner) (h : (endingIn ps (ts ++ [.exactly ' '])).fits s = true) :
    ∃ v r, s = v ++ ' ' :: r ∧ (endingIn ps ts).fits v = true := by
  obtain ⟨u, q, rfl, hu, hq⟩ := (matchParts_append_iff hps).1 h
  rw [matchParts_cons, List.any_eq_true] at hq
  obtain ⟨r, hr, -⟩ := hq
  obtain ⟨w, rfl, hw⟩ := mem_restsAll.1 hr
  obtain ⟨v, x, rfl, hv, hx⟩ := takesAll_concat hw
  obtain ⟨c, rfl, hc⟩ := (Token.takes_iff_of_ne (by simp)).1 hx
  obtain rfl : c = ' ' := by simpa [Token.allows] using hc
  refine ⟨u ++ v, r, by simp, (matchParts_append_iff hps).2 ⟨u, v, rfl, hu, ?_⟩⟩
  rw [matchParts_cons, List.any_eq_true]
  exact ⟨[], mem_restsAll.2 ⟨v, by simp, hv⟩, by simp [matchParts_boundary_iff, atEnd]⟩

/-- Some beginning of what fits with the space fits only without it. The induction is on the length: each time
the beginning up to the space is shorter. -/
theorem exists_prefix_fits_only (hps : ∀ p ∈ ps, p.IsInner) (h : (endingIn ps (ts ++ [.exactly ' '])).fits s = true) :
    ∃ v, v <+: s ∧ (endingIn ps ts).fits v = true ∧ (endingIn ps (ts ++ [.exactly ' '])).fits v = false := by
  induction hn : s.length using Nat.strong_induction_on generalizing s with
  | _ n ih =>
    obtain ⟨v, r, rfl, hv⟩ := fits_before_space hps h
    have hprefix : v <+: v ++ ' ' :: r := List.prefix_append v _
    cases hspace : (endingIn ps (ts ++ [.exactly ' '])).fits v with
    | false => exact ⟨v, hprefix, hv, hspace⟩
    -- The beginning before the space fits with the space itself, so a shorter one is looked for in it.
    | true =>
      have hlt : v.length < n := by simp [← hn]
      obtain ⟨w, hw, hfits⟩ := ih v.length hlt hspace rfl
      exact ⟨w, hw.trans hprefix, hfits⟩

end EscapedSpace
end StyleShield.Glob
