import StyleShield.Proofs.Extension
import StyleShield.Proofs.Placeholder

/-! Texts that differ in extensions only. An extension before a quote is seen by no reader of
statements: it stands inside of what may be a path, and no path is looked into. So the
statements of one text are, one by one, those of the other (`Alike.read`). -/
namespace StyleShield.Statement

/-- The same text up to extensions before quotes. -/
inductive Alike : Text → Text → Prop
  | nil : Alike [] []
  | char (c : Char) {s t : Text} : Alike s t → Alike (c :: s) (c :: t)
  | extension {e e' : Text} {q : Char} {s t : Text} : Dotted e → Dotted e' → isQuote q = true →
      Alike s t → Alike (e ++ q :: s) (e' ++ q :: t)

theorem eq_of_append_quote {p p' u u' : Text} {q q' : Char} (hp : ∀ c ∈ p, isQuote c = false)
    (hp' : ∀ c ∈ p', isQuote c = false) (hq : isQuote q = true) (hq' : isQuote q' = true)
    (h : p ++ q :: u = p' ++ q' :: u') : p = p' ∧ q = q' ∧ u = u' := by
  have ht {r : Text} (hr : ∀ c ∈ r, isQuote c = false) {x : Char} (hx : isQuote x = true) (y : Text) :
      (r ++ x :: y).takeWhile (fun c => !isQuote c) = r := by
    rw [List.takeWhile_append_of_pos fun c hc => by simp [hr c hc]]
    simp [hx]
  have he : p = p' := by
    rw [← ht hp hq u, h, ht hp' hq' u']
  subst he
  simpa using h

namespace Alike

variable {s t u v : Text}

theorem refl (s : Text) : Alike s s := by
  induction s with
  | nil => exact nil
  | cons c s ih => exact char c ih

theorem symm (h : Alike s t) : Alike t s := by
  induction h with
  | nil => exact nil
  | char c _ ih => exact char c ih
  | extension he he' hq _ ih => exact extension he' he hq ih

theorem append (h : Alike s t) (h' : Alike u v) : Alike (s ++ u) (t ++ v) := by
  induction h with
  | nil => exact h'
  | char c _ ih => exact char c ih
  | extension he he' hq _ ih =>
    rw [List.append_assoc, List.append_assoc]
    exact extension he he' hq ih

theorem of_cons {c : Char} (hc : c ≠ '.') (h : Alike (c :: s) t) : ∃ t', t = c :: t' ∧ Alike s t' := by
  generalize hx : c :: s = x at h
  cases h with
  | nil => simp at hx
  | char d h =>
    obtain ⟨rfl, rfl⟩ := List.cons.inj hx
    exact ⟨_, rfl, h⟩
  | extension he _ _ _ =>
    obtain ⟨w, -, -, rfl⟩ := he
    exact absurd (List.cons.inj hx).1 hc

theorem of_append {p : Text} (hp : '.' ∉ p) (h : Alike (p ++ s) t) : ∃ t', t = p ++ t' ∧ Alike s t' := by
  induction p generalizing t with
  | nil => exact ⟨t, rfl, h⟩
  | cons c p ih =>
    simp only [List.mem_cons, not_or] at hp
    obtain ⟨u, rfl, hu⟩ := of_cons (Ne.symm hp.1) h
    obtain ⟨t', rfl, ht⟩ := ih hp.2 hu
    exact ⟨t', rfl, ht⟩

/-- The first quote is the same in both texts. -/
theorem of_quote {p : Text} {q : Char} (hp : ∀ c ∈ p, isQuote c = false) (hq : isQuote q = true)
    (h : Alike (p ++ q :: s) t) :
    ∃ p' t', (∀ c ∈ p', isQuote c = false) ∧ t = p' ++ q :: t' ∧ Alike s t' := by
  generalize hx : p ++ q :: s = x at h
  induction h generalizing p with
  | nil => simp at hx
  | char c h ih =>
    cases p with
    | nil =>
      obtain ⟨rfl, rfl⟩ := List.cons.inj hx
      exact ⟨[], _, by simp, rfl, h⟩
    | cons d p =>
      obtain ⟨rfl, he⟩ := List.cons.inj hx
      rw [List.forall_mem_cons] at hp
      obtain ⟨p', t', hp', rfl, ht⟩ := ih hp.2 he
      exact ⟨d :: p', t', List.forall_mem_cons.2 ⟨hp.1, hp'⟩, rfl, ht⟩
  | extension he he' hq' h _ =>
    obtain ⟨rfl, rfl, rfl⟩ := eq_of_append_quote hp he.not_isQuote hq hq' hx
    exact ⟨_, _, he'.not_isQuote, rfl, h⟩

theorem atLineEnd (h : Alike s t) (hs : Statement.atLineEnd s = true) : Statement.atLineEnd t = true := by
  unfold Statement.atLineEnd at hs
  split at hs
  · generalize hx : ([] : Text) = x at h
    cases h with
    | nil => rfl
    | char c h => simp at hx
    | extension => simp at hx
  · obtain ⟨t', rfl, -⟩ := of_cons (by decide) h
    rfl
  · obtain ⟨u, rfl, hu⟩ := of_cons (by decide) h
    obtain ⟨t', rfl, -⟩ := of_cons (by decide) hu
    rfl
  · simp at hs

theorem ends {e : Text} (h : Alike s t) (he : Ends e s) : Ends e t := by
  rcases he with he | ⟨rfl, g, r, hg, rfl, hr⟩
  · exact .inl he
  · obtain ⟨r', rfl, h'⟩ := of_append (dot_notMem_of_isInlineBlank hg) h
    exact .inr ⟨rfl, g, r', hg, rfl, h'.atLineEnd hr⟩

/-- A statement that stands at the start of one text stands, up to its path, at the start of
the other. -/
theorem read {r : Text} {st : Statement} (h : Alike s t) (hs : Statement.read s = some (st, r)) :
    ∃ p r', Statement.read t = some ({ st with path := p }, r') ∧ Alike r r' := by
  obtain ⟨hw, he, rfl⟩ := read_eq_some_iff.1 hs
  rw [written_append] at h
  obtain ⟨t₁, rfl, h₁⟩ := of_append (dot_notMem_opening hw) h
  obtain ⟨p, t₂, hp, rfl, h₂⟩ := of_quote hw.path hw.quote h₁
  obtain ⟨r', rfl, hr⟩ := of_append (dot_notMem_ending he) h₂
  exact ⟨p, r', read_eq_some_iff.2 ⟨⟨hw.gap, hw.quote, hp⟩, hr.ends he, by simp [written, opening]⟩, hr⟩

theorem read_eq_none (h : Alike s t) (hs : Statement.read s = none) : Statement.read t = none := by
  rw [Option.eq_none_iff_forall_not_mem]
  rintro ⟨st, r⟩ ht
  obtain ⟨p, r', hr, -⟩ := h.symm.read ht
  simp [hs] at hr

/-- A word that holds neither dots nor quotes, and is no part of an extension, is in both texts
if it is in one. -/
theorem infix_of_infix {w : Text} (hdot : '.' ∉ w) (hquote : ∀ c ∈ w, isQuote c = false)
    (hother : ∃ c ∈ w, c.isAlphanum = false) (h : Alike s t) (hw : w <:+: s) : w <:+: t := by
  obtain ⟨u, v, hs⟩ := hw
  rw [List.append_assoc] at hs
  induction h generalizing u with
  | nil => exact ⟨[], [], by simpa using (List.append_eq_nil_iff.1 (List.append_eq_nil_iff.1 hs).2).1⟩
  | @char c s t h ih =>
    cases u with
    | nil =>
      obtain ⟨t', ht, -⟩ := of_append hdot (hs ▸ char c h)
      exact ⟨[], t', ht.symm⟩
    | cons d u => exact List.infix_cons (ih u (List.cons.inj hs).2)
  | @extension e e' q s t he he' hq h ih =>
    have hword : ¬ w ⊆ e := by
      intro hsub
      obtain ⟨c, hc, hn⟩ := hother
      obtain ⟨x, -, hx, rfl⟩ := he
      rcases List.mem_cons.1 (hsub hc) with rfl | hm
      · exact hdot hc
      · simp [List.all_eq_true.1 hx c hm] at hn
    have hq' {a b : Text} (ha : ∀ c ∈ a, isQuote c = false) (hb : q :: s = a ++ b) : a = [] := by
      cases a with
      | nil => rfl
      | cons d a =>
        obtain ⟨rfl, -⟩ := List.cons.inj hb
        simp [ha q (by simp)] at hq
    -- A word that starts within the extension would stay in it or hold the quote.
    rcases List.append_eq_append_iff.1 hs with ⟨a, rfl, hwv⟩ | ⟨a, rfl, hwv⟩
    · rcases List.append_eq_append_iff.1 hwv with ⟨b, rfl, -⟩ | ⟨b, rfl, hb⟩
      · exact absurd (fun c hc => by simp [hc]) hword
      · obtain rfl : b = [] := hq' (fun c hc => hquote c (by simp [hc])) hb
        exact absurd (fun c hc => List.mem_append_right u (by simpa using hc)) hword
    · cases a with
      | nil =>
        obtain rfl : w = [] := hq' hquote hwv
        simp at hother
      | cons d a =>
        obtain ⟨x, y, hx⟩ := ih a (List.cons.inj hwv).2.symm
        exact ⟨e' ++ q :: x, y, by simp [← hx]⟩

/-- Extensions make no placeholder and break none. -/
theorem absent (h : Alike s t) (hs : Placeholder.Absent s) : Placeholder.Absent t := by
  rintro p ⟨hp, hw⟩
  have hdot : '.' ∉ p.written := Placeholder.notMem_written hp (by decide) (by decide) (by decide)
  have hquote : ∀ c ∈ p.written, isQuote c = false := by
    intro c hc
    by_contra hq
    rcases isQuote_iff.1 (by simpa using hq) with rfl | rfl
    · exact Placeholder.notMem_written hp (by decide) (by decide) (by decide) hc
    · exact Placeholder.notMem_written hp (by decide) (by decide) (by decide) hc
  have hother : ∃ c ∈ p.written, c.isAlphanum = false := ⟨'{', p.brace_mem_written, by decide⟩
  exact hs p ⟨hp, h.symm.infix_of_infix hdot hquote hother hw⟩

end Alike

theorem Alike.withExtension {ext : Text} (hext : ext = [] ∨ Dotted ext) {st : Statement}
    (h : isQuote st.quote = true) {s t : Text} (hst : Alike s t) :
    Alike (st.written ++ s) ((st.withExtension ext).written ++ t) := by
  by_cases hn : ext = []
  · rw [Statement.withExtension, if_pos hn]
    exact (refl _).append hst
  · have hd : Dotted ext := hext.resolve_left hn
    have hend : Alike (st.ending ++ s) (st.ending ++ t) := (refl _).append hst
    rw [Statement.withExtension, if_neg hn, written_append, written_append]
    refine (refl st.opening).append ?_
    rcases renamed_cases st.path with ⟨a, e, he, hp⟩ | hp
    · rw [hp, renamed_append he, List.append_assoc, List.append_assoc]
      exact (refl a).append (extension he hd h hend)
    · rw [hp]
      exact (refl _).append (char _ hend)

end StyleShield.Statement
