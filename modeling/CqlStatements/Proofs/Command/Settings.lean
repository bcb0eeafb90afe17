import CqlStatements.Proofs.Command.Output
import CqlStatements.Proofs.Fallible
import CqlStatements.Proofs.Files.Lookups

/-!
# Where settings matter

Where settings are to come from does not change which task the arguments ask for. Settings are looked for
by two tasks only: by the one that shows them, and by the one that compiles a descriptor if the bound text
is asked for. That text depends on a single setting. All other runs are the same whatever the settings are,
and whether there are any that can be used.

Two runs are compared that agree on the input and on the descriptor. The path of a descriptor leads to the
same in both if no settings file is met on the way to it. Where help is asked for, or the arguments do not
fit together, there is no task, and the text that is shown may tell which settings file is named.
-/
namespace CqlStatements.Command

namespace Task

/-- Whether settings are looked for. -/
def needsSettings : Task → Bool
  | compile _ bound _ => bound
  | config => true
  | bind _ _ | strip _ => false

/-- The path of the descriptor that is read. -/
def descriptorPath? : Task → Option String
  | compile path _ _ => some path
  | bind _ _ | strip _ | config => none

end Task

/-- Surroundings that may differ in their settings, and in where these come from: the variable that names
a settings file names the empty path in both or in neither, the input is the same, and so is what the path
of a descriptor leads to. Only where a text takes the place of a run the variable has to be the same; if it
is the same anyway, the first two conditions say nothing. -/
structure SameButSettings (arguments : List String) (one other : Surroundings) : Prop where
  emptyName :
    one.environment "CQLG_CONFIG" = some "" ↔ other.environment "CQLG_CONFIG" = some ""
  shownName : ∀ stop, one.request arguments = .error stop → stop ≠ .version →
    one.environment "CQLG_CONFIG" = other.environment "CQLG_CONFIG"
  input : one.files.input = other.files.input
  descriptor : ∀ request, one.request arguments = .ok request →
    ∀ path ∈ request.task.descriptorPath?, one.entry path = other.entry path

section Requests

theorem settingsPath_cases {fallback fallback' : Option String}
    (emptyName : fallback = some "" ↔ fallback' = some "") (before behind : Found) :
    (settingsPath fallback before behind = .error .usage ∧
        settingsPath fallback' before behind = .error .usage) ∨
      ∃ path path', settingsPath fallback before behind = .ok path ∧
        settingsPath fallback' before behind = .ok path' := by
  unfold settingsPath
  by_cases refused : fallback = some "" ∧ (before.config.isNone ∨ behind.config.isNone)
  · have refused' : fallback' = some "" ∧ (before.config.isNone ∨ behind.config.isNone) :=
      ⟨emptyName.mp refused.1, refused.2⟩
    exact Or.inl ⟨if_pos refused, if_pos refused'⟩
  · have taken' : ¬(fallback' = some "" ∧ (before.config.isNone ∨ behind.config.isNone)) :=
      fun refused' => refused ⟨emptyName.mpr refused'.1, refused'.2⟩
    exact Or.inr ⟨_, _, if_neg refused, if_neg taken'⟩

/-- The arguments alone decide about the task, and whether there is one. -/
theorem task_ofArguments {fallback fallback' : Option String}
    (emptyName : fallback = some "" ↔ fallback' = some "") (arguments : List String) :
    Request.task <$> Request.ofArguments fallback arguments =
      Request.task <$> Request.ofArguments fallback' arguments := by
  unfold Request.ofArguments
  rw [map_bind, map_bind]
  refine bind_congr fun said => ?_
  rcases settingsPath_cases emptyName said.before said.behind with
    ⟨refused, refused'⟩ | ⟨path, path', given, given'⟩
  · rw [refused, refused']
  · rw [given, given']
    rfl

variable {arguments : List String} {one other : Surroundings}

theorem SameButSettings.exists_request (same : SameButSettings arguments one other)
    {request : Request} (asked : one.request arguments = .ok request) :
    ∃ request', other.request arguments = .ok request' ∧ request'.task = request.task := by
  rw [← Fallible.map_eq_ok_iff]
  have tasks := task_ofArguments same.emptyName arguments
  exact tasks.symm.trans (Fallible.map_eq_ok_iff.mpr ⟨request, asked, rfl⟩)

theorem SameButSettings.request_stopped (same : SameButSettings arguments one other) {stop : Stop}
    (asked : one.request arguments = .error stop) : other.request arguments = .error stop := by
  rw [← Fallible.map_eq_error_iff (f := Request.task)]
  exact (task_ofArguments same.emptyName arguments).symm.trans (Fallible.map_eq_error_iff.mpr asked)

/-- Two trees, and two environments, that differ only in what no walk to the descriptor looks up: in a
settings file, say, unless the path of the descriptor leads to it or past it. -/
theorem SameButSettings.of_trees {tree tree' : Files.Tree} {directory : Files.Address}
    {input : Except Files.Fault String} {environment environment' : String → Option String}
    (emptyName : environment "CQLG_CONFIG" = some "" ↔ environment' "CQLG_CONFIG" = some "")
    (shownName : ∀ stop, Request.ofArguments (environment "CQLG_CONFIG") arguments = .error stop →
      stop ≠ .version → environment "CQLG_CONFIG" = environment' "CQLG_CONFIG")
    (unchanged : ∀ request,
      Request.ofArguments (environment "CQLG_CONFIG") arguments = .ok request →
        ∀ path ∈ request.task.descriptorPath?, ∀ address ∈ tree.pathLookups directory path,
          tree.node? address = tree'.node? address) :
    SameButSettings arguments ⟨⟨tree.entry directory, input⟩, environment⟩
      ⟨⟨tree'.entry directory, input⟩, environment'⟩ where
  emptyName := emptyName
  shownName := shownName
  input := rfl
  descriptor request asked path given := by
    simp only [Surroundings.entry]
    rw [Files.Tree.entry_congr (unchanged request asked path given)]

end Requests

section Runs

variable {wording : Wording} {arguments : List String} {one other : Surroundings}

theorem text_congr {files files' : Files} (input : files.input = files'.input)
    (entry : Files.Entry) : files.text entry = files'.text entry := by
  match entry with
  | .file _ | .absent _ | .device .null => rfl
  | .device .input => exact input

theorem readDescriptor_congr (input : one.files.input = other.files.input) {path : String}
    (entry : one.entry path = other.entry path) :
    readDescriptor one path = readDescriptor other path := by
  simp only [readDescriptor, text_congr input, entry]

/-- The settings are looked for when the descriptor has been compiled, so its faults come first. -/
theorem compile_congr (input : one.files.input = other.files.input) {path : String}
    (entry : one.entry path = other.entry path) {configPath configPath' : Option String}
    {bound : Bool} {format : Format}
    (finished : bound = true → ∀ statement, finish (one.after path) configPath statement =
      finish (other.after path) configPath' statement) :
    compile one configPath path bound format = compile other configPath' path bound format := by
  unfold compile
  rw [readDescriptor_congr input entry]
  refine bind_congr fun descriptor => bind_congr fun statement => ?_
  cases bound with
  | false => rfl
  | true =>
      simp only [if_true]
      rw [finished rfl statement]

/-- Of the settings that are found a bound text sees a single one. -/
theorem finish_of_discover {around : Surroundings} {configPath : Option String}
    {found : Config.Found} (discovered : around.discover configPath = .ok found)
    (statement : Statement) :
    finish around configPath statement =
      attempt .statement (statement.finalize found.config.allowFiltering) := by
  unfold finish findSettings
  rw [discovered]
  rfl

/-- The version is shown alike whatever the variable is. -/
theorem SameButSettings.text_eq (same : SameButSettings arguments one other) {stop : Stop}
    (asked : one.request arguments = .error stop) :
    wording.text arguments (one.environment "CQLG_CONFIG") stop =
      wording.text arguments (other.environment "CQLG_CONFIG") stop := by
  cases stop with
  | version => rfl
  | usage | help => rw [same.shownName _ asked nofun]

/-- A task that needs no settings is performed alike whatever they are. -/
theorem perform_congr {request request' : Request} (input : one.files.input = other.files.input)
    (descriptor : ∀ path ∈ request.task.descriptorPath?, one.entry path = other.entry path)
    (tasks : request'.task = request.task) (unneeded : request.task.needsSettings = false) :
    request.perform one = request'.perform other := by
  unfold Request.perform
  rw [tasks]
  cases task : request.task with
  | bind query values => rfl
  | strip query => rfl
  | config =>
      rw [task] at unneeded
      cases unneeded
  | compile path bound format =>
      rw [task] at unneeded descriptor
      refine compile_congr input (descriptor path rfl) ?_
      intro asked
      exact absurd (unneeded.symm.trans asked) Bool.false_ne_true

/-- Runs whose surroundings differ only in settings have the same result if their task, should there be
one, needs no settings; and if a descriptor is to be compiled and bound, they have the same result if
settings are found in both and agree on filtering. -/
theorem run_eq_of_sameButSettings (wording : Wording) (same : SameButSettings arguments one other) :
    ((∀ request, one.request arguments = .ok request → request.task.needsSettings = false) →
      run wording arguments one = run wording arguments other) ∧
    ∀ request request' path format found found',
      one.request arguments = .ok request → other.request arguments = .ok request' →
      request.task = .compile path true format →
      (one.after path).discover request.configPath = .ok found →
      (other.after path).discover request'.configPath = .ok found' →
      found.config.allowFiltering = found'.config.allowFiltering →
      run wording arguments one = run wording arguments other := by
  constructor
  · intro unneeded
    cases asked : one.request arguments with
    | error stop =>
        rw [run_of_stopped asked, run_of_stopped (same.request_stopped asked), same.text_eq asked]
    | ok request =>
        obtain ⟨request', asked', tasks⟩ := same.exists_request asked
        rw [run_of_request asked, run_of_request asked',
          perform_congr same.input (same.descriptor request asked) tasks (unneeded request asked)]
  · intro request request' path format found found' asked asked' task discovered discovered' agree
    obtain ⟨again, asked_again, tasks⟩ := same.exists_request asked
    obtain rfl := Except.ok.inj (asked'.symm.trans asked_again)
    have entry := same.descriptor request asked path (by rw [task]; rfl)
    rw [run_of_request asked, run_of_request asked']
    simp only [Request.perform, tasks, task]
    rw [compile_congr same.input entry]
    intro _ statement
    rw [finish_of_discover discovered, finish_of_discover discovered', agree]

/-- A descriptor of a select, with settings in files beside it. -/
def besideSettings (settings : List (String × String)) (environment : String → Option String) :
    Surroundings :=
  ⟨.ofList (("d.json", "\x7b\"operation\":\"select\",\"table\":\"t\"\x7d") :: settings) "", environment⟩

/-- Settings that cannot be used. -/
def pagelessSettings : Surroundings :=
  besideSettings [("cqlg.toml", "page_size = 0\n")] fun _ => none

/-- Settings in the working directory. -/
def localSettings : Surroundings :=
  besideSettings [("cqlg.toml", "allow_filtering = true\n")] fun _ => none

/-- Other settings in a home directory, which agree on filtering. -/
def homeSettings : Surroundings :=
  besideSettings [("home/.config/cqlg/config.toml", "page_size = 7\nallow_filtering = true\n")]
    fun name => if name = "HOME" then some "home" else none

/-- What is asked for is the descriptor, whatever settings lie beside it. -/
theorem sameButSettings_besideSettings {environment environment' : String → Option String}
    (emptyName : environment "CQLG_CONFIG" = some "" ↔ environment' "CQLG_CONFIG" = some "")
    {request : Request}
    (asked : Request.ofArguments (environment "CQLG_CONFIG") arguments = .ok request)
    (path : request.task.descriptorPath? = some "d.json") (first second : List (String × String)) :
    SameButSettings arguments (besideSettings first environment)
      (besideSettings second environment') := by
  refine .of_trees emptyName ?_ ?_
  · intro stop stopped
    cases asked.symm.trans stopped
  · intro again asked_again given descriptor address looked
    obtain rfl := Except.ok.inj (asked.symm.trans asked_again)
    obtain rfl := Option.some.inj (path.symm.trans descriptor)
    have place := Files.Tree.pathLookups_subset (by decide) (by decide +kernel) looked
    rw [List.mem_singleton] at place
    subst place
    rfl

/-- Where help is shown only the variable has to be the same. -/
theorem sameButSettings_of_stopped {environment : String → Option String} {stop : Stop}
    (asked : Request.ofArguments (environment "CQLG_CONFIG") arguments = .error stop)
    (first second : List (String × String)) :
    SameButSettings arguments (besideSettings first environment) (besideSettings second environment) where
  emptyName := Iff.rfl
  shownName _ _ _ := rfl
  input := rfl
  descriptor request given := by cases asked.symm.trans given

/-- Plain compiling does not notice that the settings cannot be used, binding not that they moved, and help
neither. -/
theorem run_eq_of_sameButSettings_moved :
    (SameButSettings ["compile", "d.json"] pagelessSettings homeSettings ∧
        run plainWording ["compile", "d.json"] pagelessSettings =
          run plainWording ["compile", "d.json"] homeSettings) ∧
      (SameButSettings ["compile", "d.json", "-b"] localSettings homeSettings ∧
        run plainWording ["compile", "d.json", "-b"] localSettings =
          run plainWording ["compile", "d.json", "-b"] homeSettings) ∧
      SameButSettings ["bind", "--help"] pagelessSettings localSettings ∧
        run plainWording ["bind", "--help"] pagelessSettings =
          run plainWording ["bind", "--help"] localSettings := by
  have asked (bound : Bool) :
      Request.ofArguments none ("compile" :: "d.json" :: if bound then ["-b"] else []) =
        .ok ⟨none, .compile "d.json" bound .text⟩ :=
    Fallible.toOption_eq_some_iff.mp (by decide +revert +kernel)
  have stopped : Request.ofArguments none ["bind", "--help"] = .error .help := by decide +kernel
  refine ⟨?_, ?_, ?_⟩
  · have same : SameButSettings ["compile", "d.json"] pagelessSettings homeSettings :=
      sameButSettings_besideSettings (by simp) (asked false) rfl _ _
    refine ⟨same, (run_eq_of_sameButSettings plainWording same).1 fun request found => ?_⟩
    obtain rfl := Except.ok.inj (found.symm.trans (asked false))
    rfl
  · have same : SameButSettings ["compile", "d.json", "-b"] localSettings homeSettings :=
      sameButSettings_besideSettings (by simp) (asked true) rfl _ _
    have found : (localSettings.discover none).toOption =
        some ⟨{ allowFiltering := true }, some "cqlg.toml"⟩ := by decide +kernel
    have found' : (homeSettings.discover none).toOption =
        some ⟨{ pageSize := 7, allowFiltering := true }, some "home/.config/cqlg/config.toml"⟩ := by
      decide +kernel
    exact ⟨same, (run_eq_of_sameButSettings plainWording same).2 _ _ "d.json" .text _ _ (asked true)
      (asked true) rfl (Fallible.toOption_eq_some_iff.mp found)
      (Fallible.toOption_eq_some_iff.mp found') rfl⟩
  · have same : SameButSettings ["bind", "--help"] pagelessSettings localSettings :=
      sameButSettings_of_stopped stopped _ _
    refine ⟨same, (run_eq_of_sameButSettings plainWording same).1 fun request found => ?_⟩
    cases stopped.symm.trans found

end Runs

end CqlStatements.Command
