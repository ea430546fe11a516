import Mathlib.Data.List.Induction
import StyleShield.Options.Arguments
import StyleShield.Proofs.Run

/-! What the words of a command line say. They are read one way only, as inputs and flags in a row
(`Says`), and what was typed is these put in one after another (`take_eq_ok`). So each part of it
depends on the values of one flag alone, in their order (`foldl_add_nothing`). -/
namespace StyleShield.Options

variable {g : Group} {t t' : Typed} {extras : List Text} {kinds : List (Text × Kind)}

/-- An input, or a flag with what it is given. A flag that takes no value is given nothing. -/
inductive Item where
  | input (word : Text)
  | flag (f : Flag) (given : Given)
  deriving DecidableEq

def Item.switch (f : Flag) : Item := .flag f .nothing

def unpacked (isShort : Bool) : (attached : Option Text) → Flag → Except Stop (List Flag × Flag × Option Text)
  | none, f => .ok ([], f, none)
  | some v, f => unpack isShort v f

/-- The reading of words. A value is attached to its flag, or it is the next word. -/
inductive Says : List (Text × Kind) → List Item → Prop
  | nil : Says [] []
  | input {w : Text} {rest : List (Text × Kind)} {items : List Item} (h : Says rest items) :
      Says ((w, .plain) :: rest) (.input w :: items)
  | separator {w : Text} {rest : List (Text × Kind)} {items : List Item} (h : Says rest items) :
      Says ((w, .separator) :: rest) items
  | attached {w : Text} {f : Flag} {isShort : Bool} {value : Option Text} {rest : List (Text × Kind)}
      {items : List Item} (fs : List Flag) (last : Flag) (v : Text)
      (flags : unpacked isShort value f = .ok (fs, last, some v)) (h : Says rest items) :
      Says ((w, .flag f isShort value) :: rest) (fs.map .switch ++ .flag last (givenBy v) :: items)
  | apart {w : Text} {f : Flag} {isShort : Bool} {value : Option Text} {v : Text} {rest : List (Text × Kind)}
      {items : List Item} (fs : List Flag) (last : Flag) (flags : unpacked isShort value f = .ok (fs, last, none))
      (takes : last.takesValue = true) (h : Says rest items) :
      Says ((w, .flag f isShort value) :: (v, .plain) :: rest) (fs.map .switch ++ .flag last (.text v) :: items)
  | switches {w : Text} {f : Flag} {isShort : Bool} {value : Option Text} {rest : List (Text × Kind)}
      {items : List Item} (fs : List Flag) (last : Flag) (flags : unpacked isShort value f = .ok (fs, last, none))
      (takes : last.takesValue = false) (h : Says rest items) :
      Says ((w, .flag f isShort value) :: rest) ((fs ++ [last]).map .switch ++ items)

theorem Says.unique {items items' : List Item} (h : Says kinds items) (h' : Says kinds items') :
    items' = items := by
  induction h generalizing items' with
  | nil =>
    cases h'
    rfl
  | input _ ih =>
    cases h' with
    | input h' => rw [ih h']
  | separator _ ih =>
    cases h' with
    | separator h' => rw [ih h']
  -- What the word unpacks to tells the last three ways of reading it apart.
  | attached fs last v flags _ ih =>
    cases h' with
    | attached _ _ _ flags' h' =>
      obtain ⟨rfl, rfl, rfl⟩ : _ ∧ _ ∧ _ := by simpa [flags] using flags'
      rw [ih h']
    | apart _ _ flags' => simp [flags] at flags'
    | switches _ _ flags' => simp [flags] at flags'
  | apart fs last flags takes _ ih =>
    cases h' with
    | attached _ _ _ flags' => simp [flags] at flags'
    | apart _ _ flags' _ h' =>
      obtain ⟨rfl, rfl⟩ : _ ∧ _ := by simpa [flags] using flags'
      rw [ih h']
    | switches _ _ flags' takes' =>
      obtain ⟨rfl, rfl⟩ : _ ∧ _ := by simpa [flags] using flags'
      simp [takes] at takes'
  | switches fs last flags takes _ ih =>
    cases h' with
    | attached _ _ _ flags' => simp [flags] at flags'
    | apart _ _ flags' takes' =>
      obtain ⟨rfl, rfl⟩ : _ ∧ _ := by simpa [flags] using flags'
      simp [takes] at takes'
    | switches _ _ flags' _ h' =>
      obtain ⟨rfl, rfl⟩ : _ ∧ _ := by simpa [flags] using flags'
      rw [ih h']

/-- One item put in. -/
def Typed.add (t : Typed) : Item → Typed
  | .input w => { t with files := t.files ++ [w] }
  | .flag f v => t.withFlag v f

theorem withFlags_eq_ok {fs : List Flag} (h : withFlags t fs = .ok t') :
    t' = (fs.map Item.switch).foldl Typed.add t := by
  induction fs generalizing t with
  | nil => exact (Except.ok.inj h).symm
  | cons f fs ih =>
    rw [withFlags] at h
    split at h
    · simp at h
    · exact ih h

/-- Words that are taken without a remainder say in one way what was typed. -/
theorem take_eq_ok (h : take g t extras kinds = .ok (t', [])) :
    extras = [] ∧ ∃ items, Says kinds items ∧ t' = items.foldl Typed.add t := by
  fun_induction take g t extras kinds with
  | case1 g t extras =>
    obtain ⟨rfl, rfl⟩ := Prod.mk.inj (Except.ok.inj h)
    exact ⟨rfl, [], .nil, rfl⟩
  -- A word that is kept apart stays in the remainder, so a run that leaves none has taken every word.
  | case2 t extras w rest ih => exact absurd (ih h).1 (by simp)
  | case3 g t extras w rest hg ih =>
    obtain ⟨hextras, items, hs, ht⟩ := ih h
    exact ⟨hextras, .input w :: items, hs.input, ht⟩
  | case4 t extras w rest ih => exact absurd (ih h).1 (by simp)
  | case5 g t extras w rest hg ih =>
    obtain ⟨hextras, items, hs, ht⟩ := ih h
    exact ⟨hextras, items, hs.separator, ht⟩
  | case6 g t extras w rest ih => exact absurd (ih h).1 (by simp)
  | case7 => simp at h
  | case8 g t extras w f isShort value rest _ fs last v hflags ih =>
    obtain ⟨t₁, ht₁, h⟩ := bind_eq_ok_iff.1 h
    obtain ⟨hextras, items, hs, ht⟩ := ih t₁ h
    have hunpacked : unpacked isShort value f = .ok (fs, last, some v) := by cases value <;> exact hflags
    refine ⟨hextras, _, .attached fs last v hunpacked hs, ?_⟩
    rw [List.foldl_append, ← withFlags_eq_ok ht₁, ht]
    rfl
  | case9 g t extras w f isShort value _ fs last hflags htakes v rest ih =>
    obtain ⟨t₁, ht₁, h⟩ := bind_eq_ok_iff.1 h
    obtain ⟨hextras, items, hs, ht⟩ := ih t₁ h
    have hunpacked : unpacked isShort value f = .ok (fs, last, none) := by cases value <;> exact hflags
    refine ⟨hextras, _, .apart fs last hunpacked htakes hs, ?_⟩
    rw [List.foldl_append, ← withFlags_eq_ok ht₁, ht]
    rfl
  | case10 => simp at h
  | case11 g t extras w f isShort value rest _ fs last hflags htakes ih =>
    obtain ⟨t₁, ht₁, h⟩ := bind_eq_ok_iff.1 h
    obtain ⟨hextras, items, hs, ht⟩ := ih t₁ h
    have hunpacked : unpacked isShort value f = .ok (fs, last, none) := by cases value <;> exact hflags
    refine ⟨hextras, _, .switches fs last hunpacked (by simpa using htakes) hs, ?_⟩
    rw [List.foldl_append, ← withFlags_eq_ok ht₁, ht]

/-- The values that a flag is given, in order. -/
def valuesOf (f : Flag) (items : List Item) : List Given :=
  items.filterMap fun
    | .flag f' v => if f' = f then some v else none
    | .input _ => none

def inputsOf (items : List Item) : List Text :=
  items.filterMap fun
    | .input w => some w
    | .flag _ _ => none

/-- What a flag is given last. -/
def last (f : Flag) (items : List Item) : Option Given := (valuesOf f items).getLast?

/-- All that a flag is given, if it is there at all. -/
def listed (f : Flag) (items : List Item) : Option (List Given) :=
  if valuesOf f items = [] then none else some (valuesOf f items)

def isNamed (f : Flag) (items : List Item) : Bool := valuesOf f items ≠ []

def Typed.ofItems (items : List Item) : Typed :=
  ⟨inputsOf items, last .output items, last .outputDir items, last .compiler items, listed .ignore items,
    isNamed .passIgnored items, isNamed .shieldPackages items, last .ext items, listed .includes items,
    (valuesOf .verbose items).length, isNamed .version items⟩

variable {f f' : Flag} {v : Given} {w : Text} {items : List Item}

theorem valuesOf_concat_input : valuesOf f (items ++ [.input w]) = valuesOf f items := by
  simp [valuesOf]

theorem valuesOf_concat_flag :
    valuesOf f (items ++ [.flag f' v]) = if f' = f then valuesOf f items ++ [v] else valuesOf f items := by
  by_cases hf : f' = f <;> simp [valuesOf, hf]

theorem inputsOf_concat_flag : inputsOf (items ++ [.flag f v]) = inputsOf items := by
  simp [inputsOf]

theorem listed_concat_flag :
    listed f (items ++ [.flag f' v]) = if f' = f then Typed.addTo (listed f items) v else listed f items := by
  by_cases hf : f' = f
  · by_cases hv : valuesOf f items = [] <;> simp [listed, valuesOf_concat_flag, hf, hv, Typed.addTo]
  · simp [listed, valuesOf_concat_flag, hf]

theorem ofItems_concat (items : List Item) (i : Item) :
    Typed.ofItems (items ++ [i]) = (Typed.ofItems items).add i := by
  cases i with
  | input w => simp [Typed.ofItems, Typed.add, last, listed, isNamed, valuesOf_concat_input, inputsOf]
  | flag f v =>
    cases f <;> simp [Typed.ofItems, Typed.add, Typed.withFlag, last, listed_concat_flag, isNamed,
      valuesOf_concat_flag, inputsOf_concat_flag]

theorem foldl_add_nothing (items : List Item) : items.foldl Typed.add .nothing = .ofItems items := by
  induction items using List.reverseRecOn with
  | nil => rfl
  | append_singleton items i ih => rw [List.foldl_append, ih, ofItems_concat]; rfl

end StyleShield.Options
