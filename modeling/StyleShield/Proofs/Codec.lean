import StyleShield.Codec
import StyleShield.Proofs.Text.Encoding

/-! Which codecs read back what they write (`readsBack_of_mem`). Escapes in Latin-1 are written
so that a text which spells one is read as the character that it stands for. -/
namespace StyleShield.Codec

theorem readsBack_iff {c : Codec} {s : Text} {b : Bytes} (h : c.encode s = .ok b) :
    c.ReadsBack s ↔ c.decode b = .ok s := by
  constructor
  · intro hback
    exact hback b h
  · intro hb b' h'
    obtain rfl : b = b' := Except.ok.inj (h.symm.trans h')
    exact hb

variable {read : Bytes → Option Text} {lossy : Bytes → Text} {write : Text → Option Bytes}
  {b : Bytes} {s : Text} {f : Fault}

theorem strict_decode :
    (strict read lossy write).decode b = (read b).elim (.error (.encoding .undecodable)) .ok := by
  unfold decode strict
  dsimp only
  cases read b <;> rfl

theorem strict_encode :
    (strict read lossy write).encode s = (write s).elim (.error (.encoding .unencodable)) .ok := by
  unfold encode strict
  dsimp only
  cases write s <;> rfl

@[simp] theorem strict_decode_eq_ok_iff : (strict read lossy write).decode b = .ok s ↔ read b = some s := by
  rw [strict_decode]
  cases read b <;> simp

@[simp] theorem strict_decode_eq_error_iff :
    (strict read lossy write).decode b = .error f ↔ read b = none ∧ f = .encoding .undecodable := by
  rw [strict_decode]
  cases read b <;> simp [eq_comm]

@[simp] theorem strict_encode_eq_ok_iff : (strict read lossy write).encode s = .ok b ↔ write s = some b := by
  rw [strict_encode]
  cases write s <;> simp

theorem readsBack_strict (h : ∀ b, write s = some b → read b = some s) : (strict read lossy write).ReadsBack s := by
  intro b hb
  rw [strict_encode_eq_ok_iff] at hb
  exact strict_decode_eq_ok_iff.2 (h b hb)

open Encoding

@[simp] theorem utf8_encode (s : Text) : utf8.encode s = .ok (utf8Bytes s) := rfl

theorem readsBack_utf8 (s : Text) : utf8.ReadsBack s :=
  readsBack_strict fun _ hb => Option.some.inj hb ▸ utf8Text?_utf8Bytes s

theorem readsBack_utf8Signed (s : Text) : utf8Signed.ReadsBack s :=
  readsBack_strict fun _ hb => Option.some.inj hb ▸ utf8Text?_utf8Bytes s

theorem readsBack_utf16LittleEndian (s : Text) : utf16LittleEndian.ReadsBack s := by
  apply readsBack_strict
  intro b hb
  obtain rfl := Option.some.inj hb
  rw [Function.comp_apply, utf16Marks_flatMap, allRead_map_some]

/-- These codecs read back every text that they can write. -/
theorem readsBack_of_mem {c : Codec} (h : c ∈ [utf8, utf8Signed, latin1, ascii, utf16LittleEndian]) (s : Text) :
    c.ReadsBack s := by
  simp only [List.mem_cons, List.not_mem_nil, or_false] at h
  rcases h with rfl | rfl | rfl | rfl | rfl
  · exact readsBack_utf8 s
  · exact readsBack_utf8Signed s
  · exact readsBack_strict fun _ => narrowText?_narrowBytes? (by decide)
  · exact readsBack_strict fun _ => narrowText?_narrowBytes? (by decide)
  · exact readsBack_utf16LittleEndian s

/-- Not so this one. -/
example : ¬ rawEscape.ReadsBack "\\u0041".toList := by
  intro h
  have hwrite : "\\u0041".toList.flatMap escapeBytes = utf8Bytes "\\u0041".toList := by decide +kernel
  have hread : allRead (escapeMarks .plain (utf8Bytes "\\u0041".toList)) = some "\\u0041".toList :=
    strict_decode_eq_ok_iff.1 (h _ (strict_encode_eq_ok_iff.2 (congrArg some hwrite)))
  exact absurd hread (by decide +kernel)

end StyleShield.Codec
