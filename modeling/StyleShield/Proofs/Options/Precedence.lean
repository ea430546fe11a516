import StyleShield.Proofs.Options.Arguments

/-! Which options are in force. What was typed last comes first, then what the settings say, then the
defaults; where no setting exists the arguments decide alone (`fill_precedence`). -/
namespace StyleShield.Options

variable {o : Options} {s : Settings} {typed : List Settings.Field}

theorem get_fill {α : Type} (get : Options → α) (field : Settings.Field) (use : α → α)
    (h : ∀ o g, get (fillField s o g) = if g = field then use (get o) else get o) :
    get (o.fill s typed) = if field ∈ typed then get o else use (get o) := by
  have hall (fields : List Settings.Field) (hn : fields.Nodup) (o : Options) :
      get (fields.foldl (fillField s) o) = if field ∈ fields then use (get o) else get o := by
    induction fields generalizing o with
    | nil => rfl
    | cons g fields ih =>
      rw [List.nodup_cons] at hn
      rw [List.foldl_cons, ih hn.2, h]
      by_cases hg : g = field
      · subst hg
        simp [hn.1]
      · simp [hg, Ne.symm hg]
  have hmem : field ∈ Settings.Field.all := by cases field <;> decide
  rw [fill, hall _ (List.Nodup.sublist List.filter_sublist (by decide))]
  by_cases ht : field ∈ typed <;> simp [ht, hmem]

theorem get_fill_of_untouched {α : Type} (get : Options → α) (h : ∀ o g, get (fillField s o g) = get o)
    (o : Options) (typed : List Settings.Field) : get (o.fill s typed) = get o := by
  rw [get_fill get .ext id fun o g => by simp [h]]
  simp

variable {t : Typed} {args : List Text}

theorem mem_fields_iff {field : Settings.Field} : field ∈ t.fields ↔ t.hasTyped field = true := by
  have hmem : field ∈ Settings.Field.all := by cases field <;> decide
  simp [Typed.fields, hmem]

/-- Accepted arguments can be read in one way, and from this reading all options follow. A setting
that may be typed is what its flag is given last, or all that it is given if it makes a list,
whatever that is; failing that, what the settings say, be it false or empty; failing that, the
default. The other options depend on the arguments alone. -/
theorem fill_precedence (h : ofArguments args = .ok t) :
    ∃ kinds items, kindsOf args = .ok kinds ∧ Says kinds items ∧ (∀ items', Says kinds items' → items' = items) ∧
      ∀ s : Settings, let o := t.options.fill s t.fields
        o.compiler = (last .compiler items).or (s.compiler.map .text) ∧
        o.ignores = ((listed .ignore items).or (s.ignores.map (·.map .text))).getD (Ignore.matchAll.map .text) ∧
        o.passIgnored = (isNamed .passIgnored items || s.passIgnored.getD false) ∧
        o.ignorePackages = (!isNamed .shieldPackages items && s.ignorePackages.getD true) ∧
        o.ext = (((last .ext items).map Given.orEmpty).or s.ext).getD [] ∧
        o.includes = (listed .includes items).or (s.includes.map (·.map .text)) ∧
        o.files = inputsOf items ∧ o.output = (last .output items).getD (.text standard) ∧
        o.outputDir = last .outputDir items ∧ o.verbosity = (valuesOf .verbose items).length ∧
        o.version = isNamed .version items := by
  obtain ⟨kinds, hkinds, h⟩ := bind_eq_ok_iff.1 h
  obtain ⟨⟨t', extras⟩, htake, h⟩ := bind_eq_ok_iff.1 h
  obtain ⟨rfl, rfl⟩ : extras = [] ∧ t' = t := by
    by_cases he : extras = []
    · simpa [he, pure, Except.pure] using h
    · simp [he] at h
  obtain ⟨-, items, hsays, rfl⟩ := take_eq_ok htake
  rw [foldl_add_nothing]
  refine ⟨kinds, items, hkinds, hsays, fun items' => hsays.unique, fun s => ⟨?_, ?_, ?_, ?_, ?_, ?_, ?_⟩⟩
  · rw [get_fill Options.compiler .compiler (fun c => (s.compiler.map .text).or c) (by rintro o (_ | _) <;> rfl)]
    cases hl : last .compiler items <;>
      simp [mem_fields_iff, Typed.hasTyped, Typed.options, Typed.ofItems, hl, default]
  · rw [get_fill Options.ignores .ignores (s.ignores.map (·.map .text)).getD (by rintro o (_ | _) <;> rfl)]
    cases hl : listed .ignore items <;>
      simp [mem_fields_iff, Typed.hasTyped, Typed.options, Typed.ofItems, hl, default]
  · rw [get_fill Options.passIgnored .passIgnored s.passIgnored.getD (by rintro o (_ | _) <;> rfl)]
    cases hl : isNamed .passIgnored items <;>
      simp [mem_fields_iff, Typed.hasTyped, Typed.options, Typed.ofItems, hl]
  · rw [get_fill Options.ignorePackages .ignorePackages s.ignorePackages.getD (by rintro o (_ | _) <;> rfl)]
    cases hl : isNamed .shieldPackages items <;>
      simp [mem_fields_iff, Typed.hasTyped, Typed.options, Typed.ofItems, hl]
  · rw [get_fill Options.ext .ext s.ext.getD (by rintro o (_ | _) <;> rfl)]
    cases hl : last .ext items <;>
      simp [mem_fields_iff, Typed.hasTyped, Typed.options, Typed.ofItems, hl, default]
  · rw [get_fill Options.includes .includes (fun l => (s.includes.map (·.map .text)).or l) (by rintro o (_ | _) <;> rfl)]
    cases hl : listed .includes items <;>
      simp [mem_fields_iff, Typed.hasTyped, Typed.options, Typed.ofItems, hl]
  · have huntouched := get_fill_of_untouched (s := s)
      (fun o => (o.files, o.output, o.outputDir, o.verbosity, o.version)) (by rintro o (_ | _) <;> rfl)
      (Typed.ofItems items).options (Typed.ofItems items).fields
    simpa [Typed.options, Typed.ofItems, default] using huntouched

/-- Flags are given by name and by the beginning of a name, apart and attached, several times, and two
of them an empty text that the settings would fill. -/
theorem fill_precedence_typed_empty :
    let args := ["--comp=a", "--ig", "x", "f.less", "g.less", "--ignore=y", "-vo", "out", "--compiler=", "--no-",
      "--ext", ""].map String.toList
    let items : List Item := [.flag .compiler (.text ['a']), .flag .ignore (.text ['x']), .input "f.less".toList,
      .input "g.less".toList, .flag .ignore (.text ['y']), .switch .verbose, .flag .output (.text "out".toList),
      .flag .compiler (.text []), .switch .shieldPackages, .flag .ext (.text [])]
    let s : Settings := ⟨some "sass".toList, some [], some false, some true, some ".css".toList, some []⟩
    ∃ t kinds, ofArguments args = .ok t ∧ kindsOf args = .ok kinds ∧ Says kinds items ∧
      let o := t.options.fill s t.fields
      o.compiler = some (.text []) ∧ o.ignores = [.text ['x'], .text ['y']] ∧ o.passIgnored = false ∧
        o.ignorePackages = false ∧ o.ext = [] ∧ o.includes = some [] ∧
        o.files = ["f.less".toList, "g.less".toList] ∧ o.output = .text "out".toList ∧ o.verbosity = 1 := by
  intro args items s
  let t : Typed := { Typed.nothing with
    files := ["f.less".toList, "g.less".toList], output := some (.text "out".toList),
    compiler := some (.text []), ignores := some [.text ['x'], .text ['y']], shieldPackages := true,
    ext := some (.text []), verbosity := 1 }
  let kinds : List (Text × Kind) := [("--comp=a".toList, .flag .compiler false (some ['a'])),
    ("--ig".toList, .flag .ignore false none), (['x'], .plain), ("f.less".toList, .plain), ("g.less".toList, .plain),
    ("--ignore=y".toList, .flag .ignore false (some ['y'])), ("-vo".toList, .flag .verbose true (some ['o'])),
    ("out".toList, .plain), ("--compiler=".toList, .flag .compiler false (some [])),
    ("--no-".toList, .flag .shieldPackages false none), ("--ext".toList, .flag .ext false none), ([], .plain)]
  have ht : ofArguments args = .ok t := by decide +kernel
  have hk : kindsOf args = .ok kinds := by decide +kernel
  have hs : Says kinds items :=
    .attached [] .compiler ['a'] rfl <| .apart [] .ignore rfl rfl <| .input <| .input <|
      .attached [] .ignore ['y'] rfl <| .apart [.verbose] .output rfl rfl <| .attached [] .compiler [] rfl <|
      .switches [] .shieldPackages rfl rfl <| .apart [] .ext rfl rfl .nil
  obtain ⟨kinds', items', hkinds, -, hunique, hfill⟩ := fill_precedence ht
  obtain rfl := Except.ok.inj (hk.symm.trans hkinds)
  obtain rfl := hunique items hs
  obtain ⟨hc, hi, hp, hm, he, hn, hf, ho, -, hv, -⟩ := hfill s
  exact ⟨t, kinds, ht, hk, hs, hc.trans (by decide), hi.trans (by decide), hp.trans (by decide),
    hm.trans (by decide), he.trans (by decide), hn.trans (by decide), hf, ho.trans (by decide), hv.trans (by decide)⟩

/-- A separator that is attached to a flag is taken away, so a flag that is typed, and typed with a
value, comes out empty; and the settings do not fill it either. -/
theorem ext_of_attached_separator :
    let args := ["--ext=--", "x"].map String.toList
    kindOf "--ext=--".toList = .ok (.flag .ext false (some "--".toList)) ∧
      ∃ t, ofArguments args = .ok t ∧ .ext ∈ t.fields ∧
        ∀ s, (t.options.fill s t.fields).ext = [] ∧ (t.options.fill s t.fields).ext ≠ "--".toList := by
  intro args
  let t : Typed := { Typed.nothing with files := ["x".toList], ext := some .nothing }
  have hext : .ext ∈ t.fields := by decide
  have hfill (s : Settings) : (t.options.fill s t.fields).ext = [] := by
    rw [get_fill Options.ext .ext s.ext.getD (by rintro o (_ | _) <;> rfl), if_pos hext]
    rfl
  refine ⟨by decide +kernel, t, by decide +kernel, hext, fun s => ⟨hfill s, ?_⟩⟩
  rw [hfill s]
  decide
end StyleShield.Options
