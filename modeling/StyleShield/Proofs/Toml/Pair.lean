import StyleShield.Proofs.Text.Encoding
import StyleShield.Toml.Document

/-! Documents of one pair whose value cannot be read: a whole number of too many digits
(`readBytes_sevens`), and more arrays inside one another than there is room for (`readBytes_nested`). -/
namespace StyleShield.Toml

variable {r : Text} {room n : Nat} {f : Fault}

theorem moreDigits_of_all {isDigit : Char → Bool} (h : ∀ c ∈ r, isDigit c = true ∧ c ≠ '_') :
    moreDigits isDigit r = (r, []) := by
  induction r with
  | nil => rfl
  | cons c r ih =>
    rw [List.forall_mem_cons] at h
    rw [moreDigits.eq_def]
    split
    · rename_i heq
      exact absurd (List.cons.inj heq).1 h.1.2
    · rename_i heq
      obtain ⟨rfl, rfl⟩ := List.cons.inj heq
      rw [if_pos h.1.1, ih h.2]
    · rename_i heq
      simp at heq

theorem readNumber?_sevens (hr : ∀ c ∈ r, c = '7') (hlong : Text.digitLimit < r.length + 1) :
    readNumber? ('7' :: r) = some (.error (.digitLimit (r.length + 1))) := by
  have hall : ∀ c ∈ r, Char.isDigit c = true ∧ c ≠ '_' := by
    intro c hc
    obtain rfl := hr c hc
    decide
  have hwhole : readWhole? (skipSign ('7' :: r)) = some ('7' :: r, []) := by
    show (if Char.isDigit '7' = true then
      some ('7' :: (moreDigits Char.isDigit r).1, (moreDigits Char.isDigit r).2) else none) = _
    rw [if_pos (by decide), moreDigits_of_all hall]
  have hprefix : readPrefixed? ('7' :: r) = none := rfl
  rw [readNumber?, hprefix]
  dsimp only
  rw [hwhole]
  simp [skipFraction, skipExponent, hlong]

theorem readValue_sevens (fuel : Nat) (hr : ∀ c ∈ r, c = '7') (hlong : Text.digitLimit < r.length + 5) :
    readValue (fuel + 1) room ('7' :: '7' :: '7' :: '7' :: '7' :: r) = .error (.digitLimit (r.length + 5)) := by
  have hdate : readDate? ('7' :: '7' :: '7' :: '7' :: '7' :: r) = none := rfl
  have htime : readTime? ('7' :: '7' :: '7' :: '7' :: '7' :: r) = none := rfl
  have hnumber : readNumber? ('7' :: '7' :: '7' :: '7' :: '7' :: r) = some (.error (.digitLimit (r.length + 5))) := by
    have hall : ∀ c ∈ '7' :: '7' :: '7' :: '7' :: r, c = '7' := by simpa using hr
    exact readNumber?_sevens hall hlong
  rw [readValue.eq_def]
  simp [readScalar, hdate, htime, hnumber]

theorem readValue_nested (fuel : Nat) (hroom : room < 2 * n) (hfuel : 2 * n ≤ fuel) :
    readValue fuel room (List.replicate n '[' ++ r) = .error .tooDeep := by
  -- One array and its first item take two steps of the fuel, and two calls of the room.
  induction n generalizing fuel room with
  | zero => simp at hroom
  | succ n ih =>
    obtain ⟨fuel, rfl⟩ : ∃ k, fuel = k + 2 := ⟨fuel - 2, by omega⟩
    rw [List.replicate_succ, List.cons_append, readValue]
    by_cases hcalls : room < arrayCalls
    · exact if_pos hcalls
    · have hcalls' : ¬ room < 2 := hcalls
      obtain ⟨m, rfl⟩ : ∃ m, n = m + 1 := ⟨n - 1, by omega⟩
      have hinner := @ih (room - 2) fuel (by omega) (by omega)
      have hskip (k : Nat) (s : Text) : skipBetween (k + 1) ('[' :: s) = .ok ((), '[' :: s) := by
        rw [skipBetween]
        show (if ('[' :: s).length = ('[' :: s).length then Except.ok ((), '[' :: s) else _) = _
        exact if_pos rfl
      rw [List.replicate_succ, List.cons_append] at hinner ⊢
      rw [enter, if_neg hcalls, hskip]
      show readItems (fuel + 1) (room - 2) [] ('[' :: (List.replicate m '[' ++ r)) = _
      rw [readItems, hinner]
      rfl

theorem readDocument_of_value {c : Char} (hc : isGap c = false)
    (hr : ∀ fuel, 2 * (r.length + 1) ≤ fuel → readValue fuel room (c :: r) = .error f) :
    readDocument room ('x' :: ' ' :: '=' :: ' ' :: c :: r) = .error f := by
  have hkey (fuel : Nat) : readKey (fuel + 1) ('x' :: ' ' :: '=' :: ' ' :: c :: r) =
      .ok (["x".toList], '=' :: ' ' :: c :: r) := rfl
  have hskip : skipGap (' ' :: c :: r) = c :: r := by
    show (c :: r).dropWhile isGap = c :: r
    simp [hc]
  have hpair : readPair (2 * (r.length + 5) + 4) room ('x' :: ' ' :: '=' :: ' ' :: c :: r) = .error f := by
    rw [readPair, hkey]
    show Except.bind (readValue _ room (skipGap (' ' :: c :: r))) _ = _
    rw [hskip, hr _ (by omega)]
    rfl
  have hstatement (d : Draft) : d.readStatement room ('x' :: ' ' :: '=' :: ' ' :: c :: r) = .error f := by
    show Except.bind (readPair (2 * (r.length + 5) + 4) room _) _ = _
    rw [hpair]
    rfl
  show Except.map _ (Except.bind (Draft.readStatement room _ _) _) = _
  rw [hstatement]
  rfl

theorem withNewlines_of_notMem (h : '\r' ∉ r) : withNewlines r = r := by
  induction r with
  | nil => rfl
  | cons c r ih =>
    rw [List.mem_cons, not_or] at h
    rw [withNewlines.eq_def]
    split
    · rename_i heq
      exact absurd (List.cons.inj heq).1.symm h.1
    · rename_i heq
      exact absurd (List.cons.inj heq).1.symm h.1
    · rename_i heq
      obtain ⟨rfl, rfl⟩ := List.cons.inj heq
      rw [ih h.2]
    · rename_i heq
      simp at heq

theorem readBytes_of_value {c : Char} (hc : isGap c = false) (hline : '\r' ∉ c :: r)
    (hr : ∀ fuel, 2 * (r.length + 1) ≤ fuel → readValue fuel room (c :: r) = .error f) :
    readBytes room (Encoding.utf8Bytes ("x = ".toList ++ c :: r)) = .error f := by
  have hlines : '\r' ∉ "x = ".toList ++ c :: r := by
    rw [List.mem_append]
    exact fun hmem => hmem.elim (by decide) hline
  rw [readBytes, Encoding.utf8Text?_utf8Bytes]
  show readDocument room (withNewlines _) = _
  rw [withNewlines_of_notMem hlines]
  exact readDocument_of_value hc hr

theorem readBytes_sevens (hlong : Text.digitLimit < n + 5) :
    readBytes room (Encoding.utf8Bytes ("x = ".toList ++ List.replicate (n + 5) '7')) = .error (.digitLimit (n + 5)) := by
  have hr : ∀ c ∈ List.replicate n '7', c = '7' := fun c hc => List.eq_of_mem_replicate hc
  have hlength : (List.replicate n '7').length = n := List.length_replicate
  have hvalue (fuel : Nat) := @readValue_sevens (List.replicate n '7') room fuel hr (hlength.symm ▸ hlong)
  rw [hlength] at hvalue
  have hline : '\r' ∉ List.replicate (n + 5) '7' := fun hmem => absurd (List.eq_of_mem_replicate hmem) (by decide)
  rw [List.replicate_succ] at hline ⊢
  refine readBytes_of_value (by decide) hline fun fuel hfuel => ?_
  obtain ⟨fuel, rfl⟩ : ∃ k, fuel = k + 1 := ⟨fuel - 1, by omega⟩
  exact hvalue fuel

def nestedArrays (n : Nat) : Text := List.replicate n '[' ++ List.replicate n ']'

theorem readBytes_nested (hroom : room < 2 * n) :
    readBytes room (Encoding.utf8Bytes ("x = ".toList ++ nestedArrays n)) = .error .tooDeep := by
  obtain ⟨n, rfl⟩ : ∃ k, n = k + 1 := ⟨n - 1, by omega⟩
  have hvalue (fuel : Nat) := @readValue_nested (List.replicate (n + 1) ']') room (n + 1) fuel hroom
  have hsplit : nestedArrays (n + 1) = '[' :: (List.replicate n '[' ++ List.replicate (n + 1) ']') := rfl
  have hline : '\r' ∉ '[' :: (List.replicate n '[' ++ List.replicate (n + 1) ']') := by
    simp [List.mem_replicate]
  rw [hsplit]
  refine readBytes_of_value (by decide) hline fun fuel hfuel => hvalue fuel ?_
  rw [List.length_append, List.length_replicate] at hfuel
  omega

end StyleShield.Toml
