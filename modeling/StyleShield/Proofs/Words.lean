import StyleShield.Proofs.Run
import StyleShield.Proofs.Text.Strip
import StyleShield.Words

/-! Lines of words. What `join` writes, `split` reads back word by word (`split_join`): a reader that comes
to a written word has read exactly that word when it leaves it, whatever follows. A line begins and ends
with a character of a word or a quote, so nothing is stripped from it (`solid_join`). A line that is no list
of words has an open quote or ends in a backslash (`splitFrom_failsOnly`). -/
namespace StyleShield.Words

variable {c : Char} {w : Text}

theorem plain_of_isSafe (h : isSafe c = true) : isSeparator c = false ∧ c ≠ '\\' ∧ c ≠ '\'' ∧ c ≠ '"' := by
  refine ⟨?_, ?_, ?_, ?_⟩
  · rw [Bool.eq_false_iff]
    intro hs
    simp only [isSeparator, Bool.or_eq_true, beq_iff_eq] at hs
    rcases hs with ((rfl | rfl) | rfl) | rfl <;> exact absurd h (by decide)
  all_goals rintro rfl; exact absurd h (by decide)

theorem not_isBlank_of_isSafe (h : isSafe c = true) : Text.isBlank c = false := by
  have hcases : c.isAlphanum = true ∨ c ∈ ['_', '@', '%', '+', '=', ':', ',', '.', '/', '-'] := by
    simpa only [isSafe, Bool.or_eq_true, decide_eq_true_eq] using h
  rcases hcases with hletter | hmark
  · exact Text.not_isBlank_of_isAlphanum hletter
  · have hmarks : ['_', '@', '%', '+', '=', ':', ',', '.', '/', '-'].all (!Text.isBlank ·) = true := by decide
    simpa using List.all_eq_true.1 hmarks c hmark

section Reading

theorem splitFrom_of_isSafe (hc : isSafe c = true) (begun : Option Text) (s : Text) :
    splitFrom .plain begun (c :: s) = splitFrom .plain (some (begun.getD [] ++ [c])) s := by
  obtain ⟨hseparator, hescape, hsingle, hdouble⟩ := plain_of_isSafe hc
  rw [splitFrom.eq_8 _ _ _ (fun he _ => hescape he) (fun _ _ he _ => hescape he)]
  simp [hseparator, hsingle, hdouble]

theorem splitFrom_safe (hw : w.all isSafe = true) (v s : Text) :
    splitFrom .plain (some v) (w ++ s) = splitFrom .plain (some (v ++ w)) s := by
  induction w generalizing v with
  | nil => simp
  | cons c w ih =>
    rw [List.all_cons, Bool.and_eq_true] at hw
    rw [List.cons_append, splitFrom_of_isSafe hw.1, ih hw.2]
    simp

/-- Between single quotes all characters are read as they are, a quote by way of double quotes. -/
theorem splitFrom_quoted (w v s : Text) :
    splitFrom .single (some v) (w.flatMap quoteInside ++ '\'' :: s) = splitFrom .plain (some (v ++ w)) s := by
  induction w generalizing v with
  | nil => simp [splitFrom]
  | cons c w ih =>
    by_cases hc : c = '\''
    · subst hc
      simp [quoteInside, splitFrom, isSeparator, ih]
    · simp [quoteInside, splitFrom, hc, ih]

theorem splitFrom_quote (w s : Text) : splitFrom .plain none (quote w ++ s) = splitFrom .plain (some w) s := by
  unfold quote
  split
  · rename_i hsafe
    obtain ⟨hne, hall⟩ := hsafe
    obtain ⟨c, w, rfl⟩ := List.exists_cons_of_ne_nil hne
    rw [List.all_cons, Bool.and_eq_true] at hall
    rw [List.cons_append, splitFrom_of_isSafe hall.1, splitFrom_safe hall.2]
    simp
  · have hopen : splitFrom .plain none ('\'' :: (w.flatMap quoteInside ++ '\'' :: s)) =
        splitFrom .single (some []) (w.flatMap quoteInside ++ '\'' :: s) := by simp [splitFrom, isSeparator]
    simpa [hopen] using splitFrom_quoted w [] s

theorem split_join (words : List Text) : split (join words) = .ok words := by
  induction words with
  | nil => rfl
  | cons w words ih =>
    cases words with
    | nil =>
      have hread := splitFrom_quote w []
      simpa [split, join, splitFrom] using hread
    | cons v words =>
      have hline : join (w :: v :: words) = quote w ++ ' ' :: join (v :: words) := by simp [join]
      have hspace : splitFrom .plain (some w) (' ' :: join (v :: words)) =
          (split (join (v :: words))).map ([w] ++ ·) := by simp [splitFrom, isSeparator, split]
      rw [hline, split, splitFrom_quote, hspace, ih]
      rfl

end Reading

section Ends

theorem solid_quote (w : Text) : Text.Solid (quote w) := by
  unfold quote
  split
  · rename_i hsafe
    obtain ⟨hne, hall⟩ := hsafe
    exact Text.solid_of_forall hne fun c hc => not_isBlank_of_isSafe (List.all_eq_true.1 hall c hc)
  · exact ⟨⟨'\'', _, rfl, by decide⟩, ⟨_, '\'', rfl, by decide⟩⟩

theorem solid_join {words : List Text} (h : words ≠ []) : Text.Solid (join words) := by
  induction words with
  | nil => exact absurd rfl h
  | cons w words ih =>
    cases words with
    | nil => exact solid_quote w
    | cons v words =>
      have hline : join (w :: v :: words) = quote w ++ [' '] ++ join (v :: words) := by simp [join]
      rw [hline]
      exact (solid_quote w).between (ih (List.cons_ne_nil v words)) [' ']

end Ends

/-- A command line that is no list of words. -/
inductive IsLineFault : Fault → Prop
  | unclosedQuote : IsLineFault .unclosedQuote
  | danglingEscape : IsLineFault .danglingEscape

theorem splitFrom_failsOnly (mode : Mode) (word : Option Text) (line : Text) :
    FailsOnly IsLineFault (splitFrom mode word line) := by
  fun_induction splitFrom mode word line with
  | case1 word => exact .ok _
  | case2 word => exact .error .unclosedQuote
  | case3 word => exact .error .unclosedQuote
  | case4 word => exact .error .danglingEscape
  | case5 word => exact .error .danglingEscape
  | case8 => rename_i ih; exact ih.map
  | _ => assumption

end StyleShield.Words
