import Mathlib.Data.List.Basic
import Mathlib.Data.List.Induction
import StyleShield.Table

/-! Entries stored one after another. In the table that comes of it a key stands where its first entry
put it (`pairwise_place_ofList`) and holds what its last entry gave it (`mem_ofList`). -/
namespace StyleShield.Table

variable {κ ν : Type} {es : List (κ × ν)} {k l : κ} {v w : ν}

/-- The value is the one that the last entry of the key gives. -/
def IsLast (es : List (κ × ν)) (k : κ) (v : ν) : Prop :=
  ∃ before after, es = before ++ (k, v) :: after ∧ k ∉ keys after

@[simp] theorem keys_append (es es' : List (κ × ν)) : keys (es ++ es') = keys es ++ keys es' := List.map_append

@[simp] theorem keys_cons (k : κ) (v : ν) (es : List (κ × ν)) : keys ((k, v) :: es) = k :: keys es := rfl

theorem mem_keys_of_mem (h : (k, v) ∈ es) : k ∈ keys es := List.mem_map.2 ⟨_, h, rfl⟩

theorem IsLast.mem (h : IsLast es k v) : (k, v) ∈ es := by
  obtain ⟨before, after, rfl, -⟩ := h
  simp

/-- The last entry is the last one of its key, and hides those before it. -/
theorem isLast_concat : IsLast (es ++ [(l, w)]) k v ↔ l = k ∧ w = v ∨ l ≠ k ∧ IsLast es k v := by
  constructor
  · rintro ⟨before, after, hes, hk⟩
    rcases List.eq_nil_or_concat' after with rfl | ⟨after, e, rfl⟩
    · obtain ⟨-, he⟩ := List.append_inj' hes rfl
      exact .inl (by simpa using he)
    · rw [← List.cons_append, ← List.append_assoc] at hes
      obtain ⟨rfl, he⟩ := List.append_inj' hes rfl
      obtain rfl : (l, w) = e := by simpa using he
      have hboth : k ∉ keys after ∧ k ≠ l := by simpa [keys] using hk
      exact .inr ⟨hboth.2.symm, before, after, rfl, hboth.1⟩
  · rintro (⟨rfl, rfl⟩ | ⟨hne, before, after, rfl, hk⟩)
    · exact ⟨es, [], rfl, List.not_mem_nil⟩
    · refine ⟨before, after ++ [(l, w)], by simp, ?_⟩
      rw [keys_append, List.mem_append, not_or]
      exact ⟨hk, by simpa [keys] using hne.symm⟩

variable [DecidableEq κ]

def place (es : List (κ × ν)) (k : κ) : Nat := (keys es).idxOf k

theorem eq_of_place_eq (hk : k ∈ keys es) (h : place es k = place es l) : k = l :=
  (List.idxOf_inj hk).1 h

theorem ofList_concat (es : List (κ × ν)) (k : κ) (v : ν) : ofList (es ++ [(k, v)]) = put (ofList es) k v := by
  simp [ofList]

theorem find?_ofList : find? (ofList es) k = some v ↔ IsLast es k v := by
  induction es using List.reverseRecOn with
  | nil => simp [ofList, find?, IsLast]
  | append_singleton es e ih =>
    obtain ⟨l, w⟩ := e
    rw [ofList_concat, find?_put, isLast_concat, ← ih]
    by_cases h : l = k
    · simp [h]
    · simp [h]

theorem mem_keys_ofList : k ∈ keys (ofList es) ↔ k ∈ keys es := by
  induction es using List.reverseRecOn with
  | nil => rfl
  | append_singleton es e ih =>
    obtain ⟨l, w⟩ := e
    have hput : k ∈ keys (put (ofList es) l w) ↔ k ∈ keys (ofList es) ∨ k = l := by
      rw [keys_put]
      by_cases h : l ∈ keys (ofList es)
      · rw [if_pos h]
        exact ⟨.inl, fun hk => hk.elim id fun hkl => hkl ▸ h⟩
      · rw [if_neg h, List.mem_append, List.mem_singleton]
    rw [ofList_concat, hput, ih, keys_append, List.mem_append]
    exact or_congr_right List.mem_singleton.symm

theorem pairwise_place_ofList (es : List (κ × ν)) :
    (keys (ofList es)).Pairwise fun k l => place es k < place es l := by
  induction es using List.reverseRecOn with
  | nil => exact .nil
  | append_singleton es e ih =>
    obtain ⟨l, w⟩ := e
    have hold : ∀ k ∈ keys (ofList es), place (es ++ [(l, w)]) k = place es k := fun k hk => by
      rw [place, keys_append, List.idxOf_append_of_mem (mem_keys_ofList.1 hk)]
      rfl
    have hkept : (keys (ofList es)).Pairwise fun k l' => place (es ++ [(l, w)]) k < place (es ++ [(l, w)]) l' :=
      ih.imp_of_mem fun hk hl h => by rwa [hold _ hk, hold _ hl]
    rw [ofList_concat, keys_put]
    by_cases hl : l ∈ keys (ofList es)
    · rwa [if_pos hl]
    · rw [if_neg hl, List.pairwise_append]
      refine ⟨hkept, List.pairwise_singleton _ _, fun k hk l' hl' => ?_⟩
      obtain rfl := List.mem_singleton.1 hl'
      have hnew : place (es ++ [(l', w)]) l' = (keys es).length := by
        rw [place, keys_append, List.idxOf_append_of_notMem (mt mem_keys_ofList.2 hl)]
        simp [keys]
      rw [hold k hk, hnew]
      exact List.idxOf_lt_length_of_mem (mem_keys_ofList.1 hk)

theorem place_of_ofList_eq {before after : List (κ × ν)} (h : ofList es = before ++ (k, v) :: after) :
    (∀ l ∈ keys before, place es l < place es k) ∧ ∀ l ∈ keys after, place es k < place es l := by
  have hall := pairwise_place_ofList es
  rw [h, keys_append, keys_cons, List.pairwise_append, List.pairwise_cons] at hall
  obtain ⟨-, ⟨hafter, -⟩, hcross⟩ := hall
  exact ⟨fun l hl => hcross l hl k List.mem_cons_self, hafter⟩

theorem nodup_keys_ofList (es : List (κ × ν)) : (keys (ofList es)).Nodup := by
  refine (pairwise_place_ofList es).imp fun {k l} h => ?_
  rintro rfl
  exact Nat.lt_irrefl _ h

theorem mem_ofList : (k, v) ∈ ofList es ↔ IsLast es k v := by
  rw [← find?_ofList]
  exact ⟨find?_of_mem (nodup_keys_ofList es), mem_of_find?⟩

theorem IsLast.unique (h : IsLast es k v) (h' : IsLast es k w) : v = w :=
  Option.some.inj ((find?_ofList.2 h).symm.trans (find?_ofList.2 h'))

theorem exists_isLast (h : k ∈ keys es) : ∃ v, IsLast es k v := by
  obtain ⟨e, he, rfl⟩ := List.mem_map.1 (mem_keys_ofList.2 h)
  exact ⟨e.2, mem_ofList.1 he⟩

end StyleShield.Table
