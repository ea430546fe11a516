import StyleShield.Text.Encoding

/-! Characters of one byte and of 16-bit units are read as they were written. -/
namespace StyleShield.Encoding

theorem narrowText?_narrowBytes? {bound : Nat} (hb : bound ≤ 256) {s : Text} {b : Bytes}
    (h : narrowBytes? bound s = some b) : narrowText? bound b = some s := by
  simp only [narrowBytes?, Option.ite_none_right_eq_some, Option.some.injEq] at h
  obtain ⟨ha, rfl⟩ := h
  have hc : ∀ c ∈ s, c.toNat % 256 = c.toNat ∧ c.toNat < bound := by
    intro c hc
    have hl : c.toNat < bound := by simpa using List.all_eq_true.1 ha c hc
    exact ⟨Nat.mod_eq_of_lt (by omega), hl⟩
  have hall : (s.map fun c => UInt8.ofNat c.toNat).all (·.toNat < bound) = true := by
    simp only [List.all_map, List.all_eq_true, Function.comp_apply, UInt8.toNat_ofNat', decide_eq_true_eq]
    intro c hm
    rw [(hc c hm).1]
    exact (hc c hm).2
  rw [narrowText?, if_pos hall, List.map_map, Option.some.injEq]
  refine (List.map_congr_left fun c hm => ?_).trans (List.map_id s)
  simp [(hc c hm).1]

theorem toNat_unitBytes {n : Nat} (h : n < 0x10000) :
    (UInt8.ofNat (n % 256)).toNat + 256 * (UInt8.ofNat (n / 256)).toNat = n := by
  simp only [UInt8.toNat_ofNat']
  omega

theorem utf16Marks_unitBytes {n : Nat} (h : n < 0x10000) (hl : isLowHalf n = false)
    (hh : isHighHalf n = false) (b : Bytes) :
    utf16Marks (unitBytes n ++ b) = some (Char.ofNat n) :: utf16Marks b := by
  simp only [unitBytes, List.cons_append, List.nil_append]
  rw [utf16Marks.eq_def]
  simp only [toNat_unitBytes h, hl, hh, Bool.false_eq_true, if_false]

theorem utf16Marks_unitBytes_pair {hi lo : Nat} (hh : 0xD800 ≤ hi ∧ hi < 0xDC00)
    (hl : 0xDC00 ≤ lo ∧ lo < 0xE000) (b : Bytes) :
    utf16Marks (unitBytes hi ++ (unitBytes lo ++ b)) = some (joinHalves hi lo) :: utf16Marks b := by
  have h₁ : isLowHalf hi = false := by simp [isLowHalf]; omega
  have h₂ : isHighHalf hi = true := by simp [isHighHalf]; omega
  have h₃ : isLowHalf lo = true := by simp [isLowHalf]; omega
  have e₁ := toNat_unitBytes (n := hi) (by omega)
  have e₂ := toNat_unitBytes (n := lo) (by omega)
  simp only [unitBytes, List.cons_append, List.nil_append]
  rw [utf16Marks.eq_def]
  simp only [e₁, e₂, h₁, h₂, h₃, Bool.false_eq_true, if_false, if_true]

theorem utf16Marks_utf16CharBytes (c : Char) (b : Bytes) :
    utf16Marks (utf16CharBytes c ++ b) = some c :: utf16Marks b := by
  have hv : c.toNat < 0xD800 ∨ 0xDFFF < c.toNat ∧ c.toNat < 0x110000 := c.valid
  by_cases hn : c.toNat < 0x10000
  · have hl : isLowHalf c.toNat = false := by simp [isLowHalf]; omega
    have hh : isHighHalf c.toNat = false := by simp [isHighHalf]; omega
    simp only [utf16CharBytes, hn, if_true]
    rw [utf16Marks_unitBytes hn hl hh, Char.ofNat_toNat]
  · have hj : joinHalves (0xD800 + (c.toNat - 0x10000) / 0x400) (0xDC00 + (c.toNat - 0x10000) % 0x400) = c := by
      have hs : 0x10000 + (0xD800 + (c.toNat - 0x10000) / 0x400 - 0xD800) * 0x400 +
          (0xDC00 + (c.toNat - 0x10000) % 0x400 - 0xDC00) = c.toNat := by omega
      rw [joinHalves, hs, Char.ofNat_toNat]
    simp only [utf16CharBytes, hn, if_false]
    rw [List.append_assoc, utf16Marks_unitBytes_pair (by omega) (by omega), hj]

theorem utf16Marks_flatMap (s : Text) : utf16Marks (s.flatMap utf16CharBytes) = s.map some := by
  induction s with
  | nil => rfl
  | cons c s ih => rw [List.flatMap_cons, utf16Marks_utf16CharBytes, ih, List.map_cons]

theorem allRead_map_some (s : Text) : allRead (s.map some) = some s := by
  induction s with
  | nil => rfl
  | cons c s ih => simp [allRead, ih]

end StyleShield.Encoding
