import StyleShield.Proofs.Run
import StyleShield.Toml.Document

/-! How the reading of a document fails. Every reader of a part of a document gives up on its form, on
a whole number that is too long or for want of room, so bytes without a table are no text or have
one of these three faults (`readBytes_failsOnly`). -/
namespace StyleShield

namespace Toml

/-- What can be wrong with a document: its form, a whole number with too many digits, or too many
values inside one another. -/
inductive IsDocumentFault : Fault → Prop
  | malformed : IsDocumentFault .malformedToml
  | digitLimit {n : Nat} (h : Text.digitLimit < n) : IsDocumentFault (.digitLimit n)
  | tooDeep : IsDocumentFault .tooDeep

/-- The reading of a document fails in these ways only. -/
abbrev Sound {α : Type} (x : Except Fault α) : Prop := FailsOnly IsDocumentFault x

variable {α : Type}

theorem sound_malformed : Sound (malformed : Except Fault α) := .error .malformed

theorem sound_malformed_bind {β : Type} (f : α → Except Fault β) : Sound ((malformed : Except Fault α) >>= f) :=
  .error .malformed

theorem sound_readScalarValue (width : Nat) (s : Text) : Sound (readScalarValue width s) := by
  unfold readScalarValue
  dsimp only
  split
  · exact .ok _
  · exact sound_malformed

theorem sound_readEscape (manyLines : Bool) (s : Text) : Sound (readEscape manyLines s) := by
  unfold readEscape
  split
  · exact (sound_readScalarValue 4 _).bind fun _ _ => .ok _
  · exact (sound_readScalarValue 8 _).bind fun _ _ => .ok _
  · split
    · split
      · exact .ok _
      · exact .ok _
      · exact sound_malformed
    · split
      · exact .ok _
      · exact sound_malformed
  · exact sound_malformed

theorem sound_readBasic (manyLines : Bool) (fuel : Nat) (s : Text) : Sound (readBasic manyLines fuel s) := by
  induction fuel generalizing s with
  | zero => exact sound_malformed
  | succ fuel ih =>
    unfold readBasic
    split
    · exact sound_malformed
    · exact sound_malformed
    · rename_i hf
      obtain rfl := Nat.succ.inj hf
      split
      · split
        · exact .ok _
        · exact (ih _).bind fun _ _ => .ok _
      · exact .ok _
    · rename_i hf
      obtain rfl := Nat.succ.inj hf
      exact (sound_readEscape manyLines _).bind fun _ _ => (ih _).bind fun _ _ => .ok _
    · rename_i hf
      obtain rfl := Nat.succ.inj hf
      exact .ite sound_malformed ((ih _).bind fun _ _ => .ok _)

theorem sound_readLiteral (s : Text) : Sound (readLiteral s) := by
  unfold readLiteral
  split
  · exact sound_malformed
  · exact .ite sound_malformed (.ok _)

theorem sound_readManyLines (literal : Bool) (s : Text) : Sound (readManyLines literal s) := by
  unfold readManyLines
  refine .ite ?_ ((sound_readBasic true _ _).bind fun _ _ => .ok _)
  split
  · exact sound_malformed
  · exact .ite sound_malformed (.ok _)

theorem sound_readKeyPart (s : Text) : Sound (readKeyPart s) := by
  unfold readKeyPart
  split
  · exact sound_readLiteral _
  · exact sound_readBasic false _ _
  · exact .ite sound_malformed (.ok _)

theorem sound_readKey (fuel : Nat) (s : Text) : Sound (readKey fuel s) := by
  induction fuel generalizing s with
  | zero => exact sound_malformed
  | succ fuel ih =>
    unfold readKey
    refine (sound_readKeyPart s).bind fun a _ => ?_
    dsimp only
    split
    · exact (ih _).bind fun _ _ => .ok _
    · exact .ok _

theorem sound_readDate? (s : Text) {x : Except Fault (Value × Text)} (h : readDate? s = some x) : Sound x := by
  unfold readDate? at h
  simp only [Option.bind_eq_bind, Option.bind_eq_some_iff] at h
  obtain ⟨⟨y, r⟩, -, r, -, ⟨m, r⟩, -, r, -, ⟨d, r⟩, -, h⟩ := h
  dsimp only at h
  split at h
  · exact Option.some.inj h ▸ sound_malformed
  · split at h
    · exact Option.some.inj h ▸ .ok _
    · exact Option.some.inj h ▸ .ok _

theorem sound_readNumber? (s : Text) {x : Except Fault (Value × Text)} (h : readNumber? s = some x) : Sound x := by
  unfold readNumber? at h
  split at h
  · exact Option.some.inj h ▸ .ok _
  · obtain ⟨⟨ds, r⟩, -, rfl⟩ := Option.map_eq_some_iff.1 h
    refine .ite (.ok _) ?_
    split
    · rename_i hl
      exact .error (.digitLimit hl)
    · exact .ok _

theorem sound_skipComment (s : Text) : Sound (skipComment s) := by
  unfold skipComment
  split
  · exact .ite sound_malformed (.ok _)
  · exact .ok _

theorem sound_skipBetween (fuel : Nat) (s : Text) : Sound (skipBetween fuel s) := by
  induction fuel generalizing s with
  | zero => exact .ok _
  | succ fuel ih =>
    unfold skipBetween
    exact (sound_skipComment _).bind fun _ _ => .ite (.ok _) (ih _)

section

variable {change : Table Text Value → Except Fault (Table Text Value)}

theorem sound_changeAt (throughLists : Bool) (h : ∀ t, Sound (change t)) (k : Key) (t : Table Text Value) :
    Sound (changeAt throughLists change k t) := by
  induction k generalizing t with
  | nil => exact h t
  | cons n k ih =>
    unfold changeAt
    split
    · exact (ih _).bind fun _ _ => .ok _
    · exact (ih _).bind fun _ _ => .ok _
    · split
      · exact .ite ((ih _).bind fun _ _ => .ok _) sound_malformed
      · exact sound_malformed
    · exact sound_malformed

end

theorem sound_store (throughLists : Bool) (above : Key) (last : Text) (v : Value) (t : Table Text Value) :
    Sound (store throughLists above last v t) :=
  sound_changeAt throughLists (fun _ => .ite sound_malformed (.ok _)) above t

theorem sound_appendTable (above : Key) (last : Text) (t : Table Text Value) :
    Sound (appendTable above last t) := by
  refine sound_changeAt true (fun inner => ?_) above t
  split
  · exact .ok _
  · exact .ok _
  · exact sound_malformed

theorem sound_enter (calls room : Nat) {inside : Nat → Except Fault α} (h : ∀ room, Sound (inside room)) :
    Sound (enter calls room inside) :=
  .ite (.error .tooDeep) (h _)

theorem sound_readString {x : Except Fault (Text × Text)} (h : Sound x) : Sound (readString x) := h.map

theorem sound_readScalar (s : Text) : Sound (readScalar s) := by
  unfold readScalar
  split
  · exact sound_readString (sound_readManyLines _ _)
  · exact sound_readString (sound_readBasic false _ _)
  · exact sound_readString (sound_readManyLines _ _)
  · exact sound_readString (sound_readLiteral _)
  · exact .ok _
  · exact .ok _
  · split
    · exact sound_readDate? _ ‹_›
    · split
      · exact .ok _
      · split
        · exact sound_readNumber? _ ‹_›
        · split
          · exact .ok _
          · exact sound_malformed

/-- The readers of values, of items and of pairs call one another with less fuel. -/
structure SoundAt (fuel : Nat) : Prop where
  value : ∀ room s, Sound (readValue fuel room s)
  items : ∀ room done s, Sound (readItems fuel room done s)
  pair : ∀ room s, Sound (readPair fuel room s)
  inline : ∀ room done marks s, Sound (readInline fuel room done marks s)

theorem soundAt_succ {fuel : Nat} (ih : SoundAt fuel) : SoundAt (fuel + 1) where
  value room s := by
    unfold readValue
    split
    · refine sound_enter _ _ fun room => (sound_skipBetween _ _).bind fun a _ => ?_
      dsimp only
      split
      · exact .ok _
      · exact ih.items _ _ _
    · split
      · exact .ok _
      · exact sound_enter _ _ fun room => ih.inline _ _ _ _
    · exact sound_readScalar _
  items room done s := by
    unfold readItems
    refine (ih.value room s).bind fun a _ => (sound_skipBetween _ _).bind fun b _ => ?_
    dsimp only
    split
    · exact .ok _
    · refine (sound_skipBetween _ _).bind fun c _ => ?_
      split
      · exact .ok _
      · exact ih.items _ _ _
    · exact sound_malformed
  pair room s := by
    unfold readPair
    refine (sound_readKey _ s).bind fun a _ => ?_
    dsimp only
    split
    · exact (ih.value room _).bind fun _ _ => .ok _
    · exact sound_malformed
  inline room done marks s := by
    unfold readInline
    refine (ih.pair room s).bind fun a _ => .ite (sound_malformed_bind _) ?_
    refine (sound_store _ _ _ _ _).bind fun done _ => ?_
    split
    · exact .ok _
    · exact ih.inline _ _ _ _
    · exact sound_malformed

theorem soundAt (fuel : Nat) : SoundAt fuel := by
  induction fuel with
  | zero =>
    refine ⟨fun room s => ?_, fun room done s => ?_, fun room s => ?_, fun room done marks s => ?_⟩
    · unfold readValue
      exact sound_malformed
    · unfold readItems
      exact sound_malformed
    · unfold readPair
      exact sound_malformed
    · unfold readInline
      exact sound_malformed
  | succ fuel ih => exact soundAt_succ ih

variable {d : Draft}

theorem sound_storePair (d : Draft) (key : Key) (v : Value) : Sound (d.storePair key v) := by
  unfold Draft.storePair
  refine .ite (sound_malformed_bind _) ?_
  refine .ite (sound_malformed_bind _) ?_
  exact (sound_store _ _ _ _ _).bind fun _ _ => .ok _

theorem sound_openTable (d : Draft) (key : Key) : Sound (d.openTable key) := by
  unfold Draft.openTable
  refine .ite (sound_malformed_bind _) ?_
  exact (sound_changeAt true (fun _ => .ok _) _ _).bind fun _ _ => .ok _

theorem sound_openItem (d : Draft) (key : Key) : Sound (d.openItem key) := by
  unfold Draft.openItem
  refine .ite (sound_malformed_bind _) ?_
  exact (sound_appendTable _ _ _).bind fun _ _ => .ok _

theorem sound_readStatement (room : Nat) (d : Draft) (s : Text) : Sound (d.readStatement room s) := by
  unfold Draft.readStatement
  split
  · refine (sound_readKey _ _).bind fun a _ => (sound_openItem _ _).bind fun b _ => ?_
    split
    · exact .ok _
    · exact sound_malformed
  · refine (sound_readKey _ _).bind fun a _ => (sound_openTable _ _).bind fun b _ => ?_
    split
    · exact .ok _
    · exact sound_malformed
  · exact ((soundAt _).pair room _).bind fun a _ => (sound_storePair _ _ _).bind fun _ _ => .ok _

theorem sound_readAll (room fuel : Nat) (d : Draft) (s : Text) : Sound (Draft.readAll room fuel d s) := by
  induction fuel generalizing d s with
  | zero => exact sound_malformed
  | succ fuel ih =>
    unfold Draft.readAll
    split
    · exact .ok _
    · exact ih _ _
    · exact (sound_skipComment _).bind fun _ _ => ih _ _
    · refine (sound_readStatement room d _).bind fun a _ => (sound_skipComment _).bind fun b _ => ?_
      dsimp only
      split
      · exact .ok _
      · exact ih _ _
      · exact sound_malformed

theorem sound_readDocument (room : Nat) (s : Text) : Sound (readDocument room s) := (sound_readAll room _ _ s).map

/-- Bytes that hold no table are no text, or a text whose reading as a document fails. -/
theorem readBytes_failsOnly (room : Nat) (b : Bytes) :
    FailsOnly (fun f => f = .encoding .undecodable ∨ IsDocumentFault f) (readBytes room b) := by
  unfold readBytes
  split
  · exact .error (.inl rfl)
  · exact (sound_readDocument room _).mono fun _ h => .inr h

end Toml
end StyleShield
