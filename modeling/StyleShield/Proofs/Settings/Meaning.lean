import StyleShield.Proofs.Table
import StyleShield.Settings.Basic

/-! What a table of settings means. Two tables are made on the way: the sections laid flat, where a key
keeps its first place and its last value, and the fields, where a later key of the same field hides
the earlier one but is checked like it (`ofTable_meaning`). -/
namespace StyleShield

namespace Toml.Value

variable {v : Value}

theorem kind_eq_string_iff : v.kind = .string ↔ ∃ t, v = .string t := by cases v <;> simp [kind]

theorem kind_eq_boolean_iff : v.kind = .boolean ↔ ∃ b, v = .boolean b := by cases v <;> simp [kind]

theorem string?_eq_none_iff : v.string? = none ↔ ¬ ∃ t, v = .string t := by cases v <;> simp [string?]

theorem boolean?_eq_none_iff : v.boolean? = none ↔ ¬ ∃ b, v = .boolean b := by cases v <;> simp [boolean?]

theorem strings?_eq_some_iff {ts : List Text} : v.strings? = some ts ↔ v = .array (ts.map .string) := by
  cases v with
  | array vs =>
    rw [strings?, array.injEq]
    induction vs generalizing ts with
    | nil => cases ts <;> simp
    | cons v vs ih =>
      cases ts with
      | nil => cases v <;> simp [string?, List.mapM_cons, Option.bind_eq_some_iff]
      | cons t ts => cases v <;> simp [string?, List.mapM_cons, Option.bind_eq_some_iff, ih, and_comm]
  | _ => simp [strings?]

end Toml.Value

namespace Settings

open Table (IsLast place keys)

variable {s s' : Settings} {f g : Field} {k : Text} {v : Toml.Value} {t : Table Text Toml.Value}

/-- The key spells the field: with its hyphens made underscores it is the field's name. -/
def Field.IsKey (f : Field) (k : Text) : Prop := (k.map fun c => if c = '-' then '_' else c) = f.name

instance : Decidable (f.IsKey k) := inferInstanceAs (Decidable (_ = _))

theorem Field.ofName?_eq_some_iff {n : Text} : ofName? n = some f ↔ n = f.name := by
  constructor
  · intro h
    have hname : f.name = n := by simpa using List.find?_some h
    exact hname.symm
  · rintro rfl
    cases f <;> decide

theorem Field.ofKey?_eq_some_iff : ofKey? k = some f ↔ f.IsKey k := Field.ofName?_eq_some_iff

theorem Field.IsKey.unique (hf : f.IsKey k) (hg : g.IsKey k) : f = g :=
  Option.some.inj ((Field.ofKey?_eq_some_iff.2 hf).symm.trans (Field.ofKey?_eq_some_iff.2 hg))

/-- The value is of the field's kind: a text, a truth value, or a list of texts. -/
def Fits (f : Field) (v : Toml.Value) : Prop :=
  match f with
  | .compiler | .ext => ∃ t, v = .string t
  | .passIgnored | .ignorePackages => ∃ b, v = .boolean b
  | .ignores | .includes => ∃ ts : List Text, v = .array (ts.map .string)

def value? (s : Settings) : Field → Option Toml.Value
  | .compiler => s.compiler.map .string
  | .ignores => s.ignores.map fun ts => .array (ts.map .string)
  | .passIgnored => s.passIgnored.map .boolean
  | .ignorePackages => s.ignorePackages.map .boolean
  | .ext => s.ext.map .string
  | .includes => s.includes.map fun ts => .array (ts.map .string)

/-- The fault of a key whose value does not fit. -/
def complaint (f : Field) (k : Text) (v : Toml.Value) : SettingsFault :=
  if v.kind = f.expected then .notStrings k else .wrongKind k f.expected v.kind

theorem prefix_message_complaint (f : Field) (k : Text) (v : Toml.Value) :
    "Config key `".toList ++ k ++ "` must be a ".toList <+: (complaint f k v).message := by
  have hstrings : "` must be a ".toList ++ "list of strings".toList = "` must be a list of strings".toList := by
    decide
  unfold complaint
  split
  · refine ⟨"list of strings".toList, (List.append_assoc _ _ _).trans ?_⟩
    exact congrArg ("Config key `".toList ++ k ++ ·) hstrings
  · have hfront (a b c d : Text) : a <+: a ++ b ++ c ++ d := ⟨b ++ (c ++ d), by simp⟩
    exact hfront _ _ _ _

theorem set_of_fits (h : Fits f v) (s : Settings) (k : Text) :
    ∃ s', s.set f k v = .ok s' ∧ ∀ g, s'.value? g = if g = f then some v else s.value? g := by
  cases f with
  | compiler | ext | passIgnored | ignorePackages =>
    obtain ⟨a, rfl⟩ := h
    exact ⟨_, rfl, fun g => by cases g <;> rfl⟩
  | ignores | includes =>
    obtain ⟨ts, rfl⟩ := h
    have hstrings := Toml.Value.strings?_eq_some_iff.2 (Eq.refl (Toml.Value.array (ts.map .string)))
    simp only [set, Toml.Value.kind, hstrings, if_true, Except.ok.injEq, exists_eq_left']
    intro g
    cases g <;> rfl

theorem set_of_not_fits (h : ¬ Fits f v) (s : Settings) (k : Text) :
    s.set f k v = .error (.settings (complaint f k v)) := by
  cases f with
  | compiler | ext =>
    have hnone := Toml.Value.string?_eq_none_iff.2 h
    have hkind := mt Toml.Value.kind_eq_string_iff.1 h
    simp [set, complaint, hnone, Field.expected, hkind]
  | passIgnored | ignorePackages =>
    have hnone := Toml.Value.boolean?_eq_none_iff.2 h
    have hkind := mt Toml.Value.kind_eq_boolean_iff.1 h
    simp [set, complaint, hnone, Field.expected, hkind]
  | ignores | includes =>
    have hnone : v.strings? = none :=
      Option.eq_none_iff_forall_ne_some.2 fun ts hts => h ⟨ts, Toml.Value.strings?_eq_some_iff.1 hts⟩
    by_cases hkind : v.kind = .array
    · simp [set, complaint, hnone, Field.expected, hkind]
    · simp [set, complaint, Field.expected, hkind]

/-- Every value that stands under a key of a field fits. -/
def Allowed (t : Table Text Toml.Value) : Prop := ∀ k v, (k, v) ∈ t → ∀ f : Field, f.IsKey k → Fits f v

theorem allowed_nil : Allowed [] := fun _ _ h => absurd h List.not_mem_nil

theorem allowed_cons_iff : Allowed ((k, v) :: t) ↔ (∀ f : Field, f.IsKey k → Fits f v) ∧ Allowed t := by
  constructor
  · exact fun h => ⟨h k v List.mem_cons_self, fun l w hmem => h l w (List.mem_cons_of_mem _ hmem)⟩
  · rintro ⟨hfirst, hrest⟩ l w hmem
    rcases List.mem_cons.1 hmem with heq | hmem
    · cases heq
      exact hfirst
    · exact hrest l w hmem

theorem setAll_cons (h : ∀ f : Field, f.IsKey k → Fits f v) (s : Settings) (t : Table Text Toml.Value) :
    ∃ s', setAll s ((k, v) :: t) = setAll s' t ∧ ∀ f, s'.value? f = if f.IsKey k then some v else s.value? f := by
  by_cases hkey : ∃ g : Field, g.IsKey k
  · obtain ⟨g, hg⟩ := hkey
    obtain ⟨s', hset, hvalue⟩ := set_of_fits (h g hg) s k
    have hiff (f : Field) : f = g ↔ f.IsKey k := ⟨fun hf => hf ▸ hg, fun hf => hf.unique hg⟩
    refine ⟨s', ?_, fun f => ?_⟩
    · rw [setAll, Field.ofKey?_eq_some_iff.2 hg]
      simp only [hset]
    · simp only [hvalue, hiff]
  · have hnone : Field.ofKey? k = none :=
      Option.eq_none_iff_forall_ne_some.2 fun f hf => hkey ⟨f, Field.ofKey?_eq_some_iff.1 hf⟩
    refine ⟨s, ?_, fun f => (if_neg fun hf => hkey ⟨f, hf⟩).symm⟩
    rw [setAll, hnone]

theorem setAll_of_not_fits {before after : Table Text Toml.Value} (hbefore : Allowed before) (hk : f.IsKey k)
    (hv : ¬ Fits f v) (s : Settings) :
    setAll s (before ++ (k, v) :: after) = .error (.settings (complaint f k v)) := by
  induction before generalizing s with
  | nil =>
    rw [List.nil_append, setAll, Field.ofKey?_eq_some_iff.2 hk]
    simp only [set_of_not_fits hv]
  | cons e before ih =>
    obtain ⟨hfirst, hrest⟩ := allowed_cons_iff.1 hbefore
    obtain ⟨s', hset, -⟩ := setAll_cons hfirst s (before ++ (k, v) :: after)
    rw [List.cons_append, hset, ih hrest]

/-- A field takes the value of the last of its keys, and keeps the old one if it has none. -/
def Takes (t : Table Text Toml.Value) (f : Field) (old new : Option Toml.Value) : Prop :=
  (∀ k ∈ keys t, ¬ f.IsKey k) ∧ new = old ∨
    ∃ before k v after, t = before ++ (k, v) :: after ∧ f.IsKey k ∧ (∀ l ∈ keys after, ¬ f.IsKey l) ∧ new = some v

theorem Takes.cons {old new : Option Toml.Value} (h : Takes t f (if f.IsKey k then some v else old) new) :
    Takes ((k, v) :: t) f old new := by
  rcases h with ⟨hnone, hnew⟩ | ⟨before, l, w, after, rfl, hl, hafter, hnew⟩
  · by_cases hk : f.IsKey k
    · rw [if_pos hk] at hnew
      exact .inr ⟨[], k, v, t, rfl, hk, hnone, hnew⟩
    · rw [if_neg hk] at hnew
      exact .inl ⟨List.forall_mem_cons.2 ⟨hk, hnone⟩, hnew⟩
  · exact .inr ⟨(k, v) :: before, l, w, after, rfl, hl, hafter, hnew⟩

theorem setAll_of_allowed (h : Allowed t) (s : Settings) :
    ∃ s', setAll s t = .ok s' ∧ ∀ f, Takes t f (s.value? f) (s'.value? f) := by
  induction t generalizing s with
  | nil => exact ⟨s, rfl, fun f => .inl ⟨by simp [keys], rfl⟩⟩
  | cons e t ih =>
    obtain ⟨hfirst, hrest⟩ := allowed_cons_iff.1 h
    obtain ⟨s₁, hset, hvalue⟩ := setAll_cons hfirst s t
    obtain ⟨s', hs', htakes⟩ := ih hrest s₁
    exact ⟨s', hset.trans hs', fun f => Takes.cons (hvalue f ▸ htakes f)⟩

theorem exists_first_of_not_allowed (h : ¬ Allowed t) :
    ∃ before f k v after, t = before ++ (k, v) :: after ∧ Allowed before ∧ f.IsKey k ∧ ¬ Fits f v := by
  induction t with
  | nil => exact absurd allowed_nil h
  | cons e t ih =>
    obtain ⟨k, v⟩ := e
    by_cases hfirst : ∀ f : Field, f.IsKey k → Fits f v
    · obtain ⟨before, f, l, w, after, rfl, hbefore, hl, hw⟩ := ih fun ht => h (allowed_cons_iff.2 ⟨hfirst, ht⟩)
      exact ⟨(k, v) :: before, f, l, w, after, rfl, allowed_cons_iff.2 ⟨hfirst, hbefore⟩, hl, hw⟩
    · simp only [not_forall] at hfirst
      obtain ⟨f, hk, hv⟩ := hfirst
      exact ⟨[], f, k, v, t, rfl, allowed_nil, hk, hv⟩

/-- What an entry of a table adds: a section its own entries, and anything else itself. -/
def added (e : Text × Toml.Value) : List (Text × Toml.Value) :=
  match e.2 with
  | .table inner => inner
  | _ => [e]

/-- The entries that count, in order. -/
def entries (data : List (Text × Toml.Value)) : List (Text × Toml.Value) := data.flatMap added

theorem flatten_eq_ofList (data : List (Text × Toml.Value)) : flatten data = Table.ofList (entries data) := by
  rw [Table.ofList, entries, List.foldl_flatMap, flatten]
  congr
  funext flat e
  obtain ⟨k, v⟩ := e
  cases v <;> rfl

/-- The last value of a key of the field does not fit. -/
structure Misfit (es : List (Text × Toml.Value)) (f : Field) (k : Text) (v : Toml.Value) : Prop where
  key : f.IsKey k
  last : IsLast es k v
  not_fits : ¬ Fits f v

/-- No such key came earlier. -/
structure FirstMisfit (es : List (Text × Toml.Value)) (f : Field) (k : Text) (v : Toml.Value) : Prop
    extends Misfit es f k v where
  first : ∀ g l w, Misfit es g l w → place es k ≤ place es l

/-- What the entries give a field: nothing without a key of it, else the last value of that key of it which came
latest. -/
def Gives (es : List (Text × Toml.Value)) (f : Field) (given : Option Toml.Value) : Prop :=
  (∀ k ∈ keys es, ¬ f.IsKey k) ∧ given = none ∨
    ∃ k v, f.IsKey k ∧ IsLast es k v ∧ (∀ l ∈ keys es, f.IsKey l → place es l ≤ place es k) ∧ given = some v

/-- Both have the same keys of fields, in the same order and with the same last values. -/
structure Agree (es es' : List (Text × Toml.Value)) : Prop where
  last : ∀ f : Field, ∀ k v, f.IsKey k → (IsLast es k v ↔ IsLast es' k v)
  order : ∀ f g : Field, ∀ k l, f.IsKey k → g.IsKey l → k ∈ keys es → l ∈ keys es →
    (place es k < place es l ↔ place es' k < place es' l)

variable {es es' : List (Text × Toml.Value)} {l : Text} {w : Toml.Value} {a b : Option Toml.Value}

theorem Misfit.mem_keys (h : Misfit es f k v) : k ∈ keys es := Table.mem_keys_of_mem h.last.mem

theorem FirstMisfit.unique (h : FirstMisfit es f k v) (h' : FirstMisfit es g l w) : f = g ∧ k = l ∧ v = w := by
  have hplace : place es k = place es l := Nat.le_antisymm (h.first g l w h'.toMisfit) (h'.first f k v h.toMisfit)
  obtain rfl : k = l := Table.eq_of_place_eq h.mem_keys hplace
  exact ⟨h.key.unique h'.key, rfl, h.last.unique h'.last⟩

theorem Gives.unique (h : Gives es f a) (h' : Gives es f b) : a = b := by
  rcases h with ⟨hnone, rfl⟩ | ⟨k, v, hk, hlast, hlatest, rfl⟩
  · rcases h' with ⟨-, rfl⟩ | ⟨l, w, hl, hlast', -, -⟩
    · rfl
    · exact absurd hl (hnone l (Table.mem_keys_of_mem hlast'.mem))
  · have hmem := Table.mem_keys_of_mem hlast.mem
    rcases h' with ⟨hnone, -⟩ | ⟨l, w, hl, hlast', hlatest', rfl⟩
    · exact absurd hk (hnone k hmem)
    · have hmem' := Table.mem_keys_of_mem hlast'.mem
      obtain rfl : k = l :=
        Table.eq_of_place_eq hmem (Nat.le_antisymm (hlatest' k hmem hk) (hlatest l hmem' hl))
      rw [hlast.unique hlast']

namespace Agree

theorem mem_keys (h : Agree es es') (hk : f.IsKey k) : k ∈ keys es ↔ k ∈ keys es' := by
  constructor
  · intro hmem
    obtain ⟨v, hv⟩ := Table.exists_isLast hmem
    exact Table.mem_keys_of_mem ((h.last f k v hk).1 hv).mem
  · intro hmem
    obtain ⟨v, hv⟩ := Table.exists_isLast hmem
    exact Table.mem_keys_of_mem ((h.last f k v hk).2 hv).mem

theorem place_le (h : Agree es es') (hk : f.IsKey k) (hl : g.IsKey l) (hmem : k ∈ keys es) (hmem' : l ∈ keys es)
    (hle : place es k ≤ place es l) : place es' k ≤ place es' l :=
  Nat.le_of_not_lt fun hlt => Nat.not_lt.2 hle ((h.order g f l k hl hk hmem' hmem).2 hlt)

theorem misfit (h : Agree es es') : Misfit es f k v ↔ Misfit es' f k v :=
  ⟨fun hm => ⟨hm.key, (h.last f k v hm.key).1 hm.last, hm.not_fits⟩,
    fun hm => ⟨hm.key, (h.last f k v hm.key).2 hm.last, hm.not_fits⟩⟩

theorem firstMisfit (h : Agree es es') (hm : FirstMisfit es f k v) : FirstMisfit es' f k v where
  toMisfit := h.misfit.1 hm.toMisfit
  first g l w hw :=
    have hw' : Misfit es g l w := h.misfit.2 hw
    h.place_le hm.key hw'.key hm.mem_keys hw'.mem_keys (hm.first g l w hw')

theorem gives (h : Agree es es') (hg : Gives es f a) : Gives es' f a := by
  rcases hg with ⟨hnone, rfl⟩ | ⟨k, v, hk, hlast, hlatest, rfl⟩
  · exact .inl ⟨fun k hmem hk => hnone k ((h.mem_keys hk).2 hmem) hk, rfl⟩
  · refine .inr ⟨k, v, hk, (h.last f k v hk).1 hlast, fun l hmem hl => ?_, rfl⟩
    have hmem' : l ∈ keys es := (h.mem_keys hl).2 hmem
    exact h.place_le hl hk hmem' (Table.mem_keys_of_mem hlast.mem) (hlatest l hmem' hl)

end Agree

theorem value?_unset (f : Field) : unset.value? f = none := by cases f <;> rfl

theorem eq_of_value? (h : ∀ f, s.value? f = s'.value? f) : s = s' := by
  have hstring : Function.Injective Toml.Value.string := fun _ _ => Toml.Value.string.inj
  have hboolean : Function.Injective Toml.Value.boolean := fun _ _ => Toml.Value.boolean.inj
  have harray : Function.Injective fun ts : List Text => Toml.Value.array (ts.map .string) :=
    fun _ _ heq => List.map_injective_iff.2 hstring (Toml.Value.array.inj heq)
  have hcompiler := Option.map_injective hstring (h .compiler)
  have hignores := Option.map_injective harray (h .ignores)
  have hpass := Option.map_injective hboolean (h .passIgnored)
  have hpackages := Option.map_injective hboolean (h .ignorePackages)
  have hext := Option.map_injective hstring (h .ext)
  have hincludes := Option.map_injective harray (h .includes)
  cases s
  cases s'
  exact Settings.mk.injEq .. ▸ ⟨hcompiler, hignores, hpass, hpackages, hext, hincludes⟩

theorem ofTable_cases (data : List (Text × Toml.Value)) :
    (∃ f k v, FirstMisfit (entries data) f k v ∧ ofTable data = .error (.settings (complaint f k v))) ∨
      (∀ f k v, ¬ Misfit (entries data) f k v) ∧
        ∃ s, ofTable data = .ok s ∧ ∀ f, Gives (entries data) f (s.value? f) := by
  unfold ofTable
  rw [flatten_eq_ofList]
  -- The list holds the last value of each key, in the order of places, so the first bad value in it is the fault.
  by_cases hallowed : Allowed (Table.ofList (entries data))
  · refine .inr ⟨fun f k v hm => hm.not_fits (hallowed k v (Table.mem_ofList.2 hm.last) f hm.key), ?_⟩
    obtain ⟨s, hs, htakes⟩ := setAll_of_allowed hallowed unset
    refine ⟨s, hs, fun f => ?_⟩
    rcases htakes f with ⟨hnone, hvalue⟩ | ⟨before, k, v, after, hsplit, hk, hafter, hvalue⟩
    · exact .inl ⟨fun k hmem => hnone k (Table.mem_keys_ofList.2 hmem), hvalue.trans (value?_unset f)⟩
    · have hlast : (k, v) ∈ Table.ofList (entries data) := by simp [hsplit]
      refine .inr ⟨k, v, hk, Table.mem_ofList.1 hlast, fun l hmem hl => ?_, hvalue⟩
      have hmem' : l ∈ keys before ∨ l ∈ k :: keys after := by
        rw [← Table.mem_keys_ofList, hsplit] at hmem
        simpa using hmem
      rcases hmem' with hbefore | hrest
      · exact Nat.le_of_lt ((Table.place_of_ofList_eq hsplit).1 l hbefore)
      · rcases List.mem_cons.1 hrest with rfl | hin
        · exact Nat.le_refl _
        · exact absurd hl (hafter l hin)
  · obtain ⟨before, f, k, v, after, hsplit, hbefore, hk, hv⟩ := exists_first_of_not_allowed hallowed
    have hlast : (k, v) ∈ Table.ofList (entries data) := by simp [hsplit]
    refine .inl ⟨f, k, v, ⟨⟨hk, Table.mem_ofList.1 hlast, hv⟩, fun g l w hm => ?_⟩, ?_⟩
    · have hmem : (l, w) ∈ before ∨ (l, w) ∈ (k, v) :: after := by
        rw [← List.mem_append, ← hsplit]
        exact Table.mem_ofList.2 hm.last
      rcases hmem with hin | hrest
      · exact absurd (hbefore l w hin g hm.key) hm.not_fits
      · rcases List.mem_cons.1 hrest with heq | hin
        · cases heq
          exact Nat.le_refl _
        · exact Nat.le_of_lt ((Table.place_of_ofList_eq hsplit).2 l (Table.mem_keys_of_mem hin))
    · rw [hsplit, setAll_of_not_fits hbefore hk hv]

/-- A table is refused for the first key whose last value does not fit its field, and for nothing else.
Otherwise each field holds the last value of the latest of its keys. Other keys, and values that are
overwritten, do not matter. -/
theorem ofTable_meaning (data : List (Text × Toml.Value)) :
    let es := entries data
    ((∃ fault, ofTable data = .error fault) ↔ ∃ f k v, Misfit es f k v) ∧
      (∀ fault, ofTable data = .error fault → ∃ f k v, FirstMisfit es f k v ∧
        fault = .settings (complaint f k v) ∧
        "Config key `".toList ++ k ++ "` must be a ".toList <+: (complaint f k v).message) ∧
      (∀ s, ofTable data = .ok s → ∀ f, Gives es f (s.value? f)) ∧
      ∀ data', Agree es (entries data') → ofTable data' = ofTable data := by
  intro es
  rcases ofTable_cases data with ⟨f, k, v, hm, herror⟩ | ⟨hfits, s, hok, hgives⟩
  · refine ⟨⟨fun _ => ⟨f, k, v, hm.toMisfit⟩, fun _ => ⟨_, herror⟩⟩, fun fault hfault => ?_, fun s hs => ?_, ?_⟩
    · obtain rfl : Fault.settings (complaint f k v) = fault := Except.error.inj (herror.symm.trans hfault)
      exact ⟨f, k, v, hm, rfl, prefix_message_complaint f k v⟩
    · exact absurd (hs.symm.trans herror) (by simp)
    · intro data' hagree
      rcases ofTable_cases data' with ⟨f', k', v', hm', herror'⟩ | ⟨hfits', -⟩
      · obtain ⟨rfl, rfl, rfl⟩ := (hagree.firstMisfit hm).unique hm'
        rw [herror, herror']
      · exact absurd (hagree.misfit.1 hm.toMisfit) (hfits' f k v)
  · refine ⟨⟨fun ⟨fault, hfault⟩ => ?_, fun ⟨f, k, v, hm⟩ => absurd hm (hfits f k v)⟩, fun fault hfault => ?_,
      fun s' hs' => ?_, ?_⟩
    · exact absurd (hok.symm.trans hfault) (by simp)
    · exact absurd (hok.symm.trans hfault) (by simp)
    · obtain rfl : s = s' := Except.ok.inj (hok.symm.trans hs')
      exact hgives
    · intro data' hagree
      rcases ofTable_cases data' with ⟨f', k', v', hm', -⟩ | ⟨-, s', hok', hgives'⟩
      · exact absurd (hagree.misfit.2 hm'.toMisfit) (hfits f' k' v')
      · have hs : s = s' := eq_of_value? fun f => (hagree.gives (hgives f)).unique (hgives' f)
        rw [hok, hok', hs]

/-- A key that comes again keeps its first place, so the other spelling still came latest. -/
example : ofTable [("ignore-node-modules".toList, .boolean true), ("ignore_node_modules".toList, .boolean false),
    ("shielding".toList, .table [("ignore-node-modules".toList, .boolean true)])] =
      .ok { unset with ignorePackages := some false } := by
  rfl

end Settings
end StyleShield
