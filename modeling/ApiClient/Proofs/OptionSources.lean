import ApiClient.Program

/-!
# Sources of options

Options come from a settings document or from the arguments of a command. Both start from the same
defaults and end in the same check, but only settings refuse a source or a destination of blanks
before that.

Results:
* `exists_sameValues`: for all arguments without a settings file there are settings with the same
  values.
* `toOptions_eq`, `options_eq`: both sources check the same options.
* `options_of_toOptions`: the arguments give the options that the settings give.
* `agree_iff`: the two sources agree exactly if the arguments are refused or name both directories.
* `not_agree_blankSource`: arguments with a blank source are accepted, and the settings are not.
-/

namespace ApiClient

open CommandLine

/-! ## Specification -/

/-- The arguments name a source and a destination, neither of them blank. -/
structure CommandLine.Input.NamesDirectories (i : Input) : Prop where
  source : Text.isBlankText (i.source.getD "") = false
  destination : Text.isBlankText (i.destination.getD "") = false

namespace Settings

/-- The settings hold the values of arguments that name no settings file. What settings leave out is
at its default in the arguments. -/
structure SameValues (st : Settings) (i : Input) : Prop where
  noFile : i.settings = none
  source : i.source = st.source
  destination : i.destination = st.destination
  files : i.files = st.files.getD []
  controllerBases : i.controllerBases = st.controllerBases.getD []
  apiPath : i.apiPath = st.apiPath
  combineImports : i.combineImports = st.combineImports.getD false
  handleErrors : i.handleErrors = st.handleErrors.getD true
  generateSchema : i.generateSchema = st.generateSchema.getD false
  schemaPath : i.schemaPath = st.schemaPath
  dialect : st.dialect.elim (.ok .angular) Dialect.parse = .ok i.dialect
  httpModule : st.httpModule.elim (.ok .client) HttpModule.parse = .ok i.httpModule

/-- The settings and the arguments give the same options, or both are refused. -/
inductive Agree (st : Settings) (i : Input) (s : Path.Surroundings) (d : Disk) : Prop
  | accepted {o : Options} : st.toOptions = .ok o → i.options s d = .ok o → st.Agree i s d
  | refused {fault fault' : ConfigFault} : st.toOptions = .error (.config fault) →
    i.options s d = .error (.options (.config fault')) → st.Agree i s d

end Settings

/-! ## The same options -/

/-- The options of arguments before they are checked. -/
def CommandLine.Input.draft (i : Input) (source destination : String) : Options :=
  let o := { Options.initial source destination with
    combineImports := i.combineImports
    handleErrors := i.handleErrors
    generateSchema := i.generateSchema
    dialect := i.dialect
    httpModule := i.httpModule }
  let o := (o.withFiles i.files).withControllerBases i.controllerBases
  let o := i.apiPath.elim o fun path => o.withApiPath path
  i.schemaPath.elim o fun path => o.withSchemaPath path

theorem CommandLine.Input.options_eq {i : Input} (h : i.settings = none) (s : Path.Surroundings)
    (d : Disk) : i.options s d =
      (i.draft (i.source.getD "") (i.destination.getD "")).validate.mapError .options := by
  rw [options, h]
  rfl

namespace Settings

variable {st : Settings} {i : Input}

/-- Settings look for directories that are not blank, and go on as the arguments do. -/
theorem toOptions_eq (h : st.SameValues i) : st.toOptions =
    ((notBlank i.source).elim (.error (.config .noSource)) fun source =>
      (notBlank i.destination).elim (.error (.config .noDestination)) fun destination =>
        (i.draft source destination).validate) := by
  rw [toOptions, h.source, h.destination]
  cases notBlank st.source with
  | none => rfl
  | some source =>
    cases notBlank st.destination with
    | none => rfl
    | some destination =>
      simp only [Option.elim_some, bind, Except.bind, Options.withFiles_eq,
        Options.withControllerBases_eq, Options.withSchemaPath_eq, Options.withApiPath_eq,
        Options.initial, Input.draft, h.files, h.controllerBases, h.apiPath, h.combineImports,
        h.handleErrors, h.generateSchema, h.schemaPath]
      -- The choices are read last; without a path the default stays.
      cases st.apiPath <;> cases st.schemaPath <;>
        simp only [Option.elim_none, Option.elim_some, h.dialect, h.httpModule] <;> rfl

theorem notBlank_eq_some {setting : Option String} {text : String} :
    notBlank setting = some text ↔ setting = some text ∧ Text.isBlankText text = false := by
  rw [notBlank, Option.filter_eq_some_iff, Bool.not_eq_true']

theorem notBlank_of_isBlankText {setting : Option String}
    (h : Text.isBlankText (setting.getD "") = false) :
    notBlank setting = some (setting.getD "") := by
  cases setting with
  | none => contradiction
  | some text => exact notBlank_eq_some.2 ⟨rfl, h⟩

theorem toOptions_of_namesDirectories (h : st.SameValues i) (hi : i.NamesDirectories) :
    st.toOptions = (i.draft (i.source.getD "") (i.destination.getD "")).validate := by
  rw [toOptions_eq h, notBlank_of_isBlankText hi.source, notBlank_of_isBlankText hi.destination]
  rfl

theorem exists_toOptions_eq_error (h : st.SameValues i) (hi : ¬ i.NamesDirectories) :
    ∃ fault, st.toOptions = .error (.config fault) := by
  rw [toOptions_eq h]
  cases hsource : notBlank i.source with
  | none => exact ⟨.noSource, rfl⟩
  | some source =>
    cases hdestination : notBlank i.destination with
    | none => exact ⟨.noDestination, rfl⟩
    | some destination =>
      obtain ⟨hs, hsource⟩ := notBlank_eq_some.1 hsource
      obtain ⟨hd, hdestination⟩ := notBlank_eq_some.1 hdestination
      exact absurd ⟨by rwa [hs], by rwa [hd]⟩ hi

theorem toOptions_cases (h : st.SameValues i) :
    i.NamesDirectories ∧
        st.toOptions = (i.draft (i.source.getD "") (i.destination.getD "")).validate ∨
      ¬ i.NamesDirectories ∧ ∃ fault, st.toOptions = .error (.config fault) := by
  by_cases hi : i.NamesDirectories
  · exact .inl ⟨hi, toOptions_of_namesDirectories h hi⟩
  · exact .inr ⟨hi, exists_toOptions_eq_error h hi⟩

/-! ## Agreement -/

theorem validate_cases (o : Options) : o.validate = .ok o ∨
    ∃ fault, o.validate = .error (.config fault) := by
  rw [Options.validate]
  cases o.fault? with
  | none => exact .inl rfl
  | some fault => exact .inr ⟨fault, rfl⟩

/-- All arguments that name no settings file can be put into settings. -/
theorem exists_sameValues (h : i.settings = none) : ∃ st : Settings, st.SameValues i := by
  refine ⟨⟨i.source, i.destination, some i.files, some i.controllerBases, i.apiPath,
    some i.combineImports, some i.handleErrors, some i.generateSchema, i.schemaPath,
    some i.dialect.keyword, some i.httpModule.className⟩, ?_⟩
  constructor
  case noFile => exact h
  case dialect => rw [Option.elim_some, Dialect.parse_keyword]
  case httpModule => rw [Option.elim_some, HttpModule.parse_className]
  all_goals rfl

variable {s : Path.Surroundings} {d : Disk}

/-- The arguments give the options that the settings give. -/
theorem options_of_toOptions (h : st.SameValues i) {o : Options} (ho : st.toOptions = .ok o) :
    i.options s d = .ok o := by
  rcases toOptions_cases h with ⟨_, hst⟩ | ⟨_, fault, hst⟩
  · rw [Input.options_eq h.noFile, ← hst, ho]
    rfl
  · rw [hst] at ho
    contradiction

/-- Both sources give the same options or refuse them, unless the arguments have a blank directory
and are accepted all the same. -/
theorem agree_iff (h : st.SameValues i) :
    st.Agree i s d ↔ ∀ o, i.options s d = .ok o → i.NamesDirectories := by
  have hoptions := i.options_eq h.noFile s d
  rcases validate_cases (i.draft (i.source.getD "") (i.destination.getD "")) with
    hok | ⟨fault, hfault⟩
  · rw [hok] at hoptions
    rcases toOptions_cases h with ⟨hi, hst⟩ | ⟨hi, fault, hst⟩
    · exact ⟨fun _ _ _ => hi, fun _ => .accepted (hst.trans hok) hoptions⟩
    · refine ⟨?_, fun hnames => absurd (hnames _ hoptions) hi⟩
      rintro (⟨hst', _⟩ | ⟨_, hrefused⟩)
      · cases hst.symm.trans hst'
      · cases hoptions.symm.trans hrefused
  · rw [hfault] at hoptions
    have hagree : st.Agree i s d := by
      rcases toOptions_cases h with ⟨_, hst⟩ | ⟨_, fault', hst⟩
      · exact .refused (hst.trans hfault) hoptions
      · exact .refused hst hoptions
    refine ⟨fun _ o ho => ?_, fun _ => hagree⟩
    cases hoptions.symm.trans ho

/-- Settings with these directories, and all else left out. -/
def directories (source destination : String) : Settings :=
  { blank with source := some source, destination := some destination }

end Settings

/-- Arguments with these directories, and all else at its default. -/
def CommandLine.Input.directories (source destination : String) : Input :=
  ⟨none, some source, some destination, none, [], [], false, true, false, none, .angular, .client⟩

namespace Settings

theorem sameValues_directories (source destination : String) :
    (directories source destination).SameValues (Input.directories source destination) := by
  constructor <;> rfl

/-- An empty list and a blank path, which change nothing, and texts with blanks around them. -/
def padded : Settings :=
  { directories "in" "out" with
    files := some []
    apiPath := some " /api/ "
    schemaPath := some " "
    dialect := some " React " }

end Settings

/-- The same values as arguments. -/
def CommandLine.Input.padded : Input :=
  { Input.directories "in" "out" with
    apiPath := some " /api/ "
    schemaPath := some " "
    dialect := .react }

namespace Settings

theorem agree_iff_padded : padded.SameValues Input.padded ∧
    (padded.Agree Input.padded ⟨"/", "/"⟩ .empty ↔
      ∀ o, Input.padded.options ⟨"/", "/"⟩ .empty = .ok o → Input.padded.NamesDirectories) := by
  have hvalues : padded.SameValues Input.padded := by
    constructor <;> rfl
  exact ⟨hvalues, agree_iff hvalues⟩

/-- A source of one blank is refused in settings and accepted as an argument. -/
theorem not_agree_blankSource :
    (directories " " "out").SameValues (Input.directories " " "out") ∧
      ¬ (directories " " "out").Agree (Input.directories " " "out") ⟨"/", "/"⟩ .empty := by
  refine ⟨sameValues_directories " " "out", ?_⟩
  have hrefused : (directories " " "out").toOptions = .error (.config .noSource) := by rfl
  have haccepted : (Input.directories " " "out").options ⟨"/", "/"⟩ .empty =
      .ok (Options.initial " " "out") := by rfl
  rintro (⟨hst, _⟩ | ⟨_, hi⟩)
  · rw [hrefused] at hst
    contradiction
  · rw [haccepted] at hi
    contradiction

end Settings

end ApiClient
