import CqlStatements.Proofs.Command.Settings
import CqlStatements.Proofs.Config.Precedence

/-!
# Which settings file is asked for

A settings file is asked for by the arguments or, where these name none, by a variable. Whichever of the
two it was, the search for settings sees nothing but the file, and the candidates count for nothing.
-/
namespace CqlStatements.Command

open Config (FirstFile IsFile Settles)

/-- Without the variable a path comes from the arguments or not at all. -/
theorem settingsPath_none (before behind : Found) :
    settingsPath none before behind = .ok (behind.config.or before.config) := by
  rw [settingsPath, if_neg, Option.or_none]
  intro refused
  cases refused.1

theorem eq_of_settingsPath {fallback path : Option String} {before behind : Found}
    (given : settingsPath fallback before behind = .ok path) :
    path = (behind.config.or before.config).or fallback := by
  unfold settingsPath at given
  split at given
  · cases given
  · exact (Except.ok.inj given).symm

/-- The variable stands in for a path that the arguments do not give, and changes nothing else. -/
theorem exists_given {fallback : Option String} {arguments : List String} {request : Request}
    (asked : Request.ofArguments fallback arguments = .ok request) :
    ∃ given, Request.ofArguments none arguments = .ok given ∧ request.task = given.task ∧
      request.configPath = given.configPath.or fallback := by
  obtain ⟨said, taken, asked⟩ := Fallible.bind_eq_ok_iff.mp asked
  obtain ⟨path, chosen, made⟩ := Fallible.bind_eq_ok_iff.mp asked
  obtain rfl := Except.ok.inj made
  refine ⟨⟨said.behind.config.or said.before.config, said.task⟩, ?_, rfl, eq_of_settingsPath chosen⟩
  refine Fallible.bind_eq_ok_iff.mpr ⟨said, taken, ?_⟩
  rw [settingsPath_none]
  rfl

/-- The first candidate that is a file decides alone, the defaults are for want of a file, and a path that is
given or that the variable names decides alone in place of the candidates. -/
theorem discover_exact (files : Files) (candidates : List String) :
    Config.Prioritised files candidates ∧
      ∀ environment arguments request,
        Request.ofArguments (environment "CQLG_CONFIG") arguments = .ok request →
        ∃ given, Request.ofArguments none arguments = .ok given ∧
          Surroundings.discover ⟨files, environment⟩ request.configPath =
            match given.configPath.or (environment "CQLG_CONFIG") with
            | some path => Config.discover files candidates (some path)
            | none => Config.firstExisting files (Config.candidates environment) := by
  refine ⟨Config.prioritised files candidates, ?_⟩
  intro environment arguments request asked
  obtain ⟨given, asked', -, path⟩ := exists_given asked
  refine ⟨given, asked', ?_⟩
  rw [path]
  cases given.configPath.or (environment "CQLG_CONFIG") <;> rfl

/-- A file that cannot be used, between a place without a file and another place. -/
def unusableBefore (behind : Files.Entry) : Files where
  entry path :=
    if path = "a.toml" then .file (.ok "page_size = 0\n")
    else if path = "b.toml" then behind
    else .absent .notFound
  input := .ok ""

def unusableBeforeUsable : Files := unusableBefore (.file (.ok "page_size = 7\n"))

def threePlaces : List String := ["c.toml", "a.toml", "b.toml"]

/-- A file behind one that cannot be used makes no difference, but it is used if the variable names it. -/
theorem discover_exact_unusableBefore :
    Config.firstExisting unusableBeforeUsable threePlaces = .error (.unusable .emptyPages) ∧
      Config.firstExisting (unusableBefore (.absent .notFound)) threePlaces =
        .error (.unusable .emptyPages) ∧
      Config.discover unusableBeforeUsable threePlaces (some "c.toml") =
        .error (.unreadable .notFound) ∧
      Surroundings.discover ⟨unusableBeforeUsable, fun _ => some "b.toml"⟩ (some "b.toml") =
        .ok ⟨{ pageSize := 7 }, some "b.toml"⟩ := by
  obtain ⟨prioritised, asked⟩ := discover_exact unusableBeforeUsable threePlaces
  have missing : ∀ earlier ∈ ["c.toml"], ¬IsFile unusableBeforeUsable earlier := by
    rw [List.forall_mem_singleton]
    intro is_file
    obtain ⟨content, entry⟩ := is_file
    cases entry
  have refused : Config.loadFrom unusableBeforeUsable "a.toml" = .error (.unusable .emptyPages) := by
    decide +kernel
  have found := (prioritised.answer _).mpr (Or.inl
    ⟨"a.toml", _, ⟨["c.toml"], ["b.toml"], rfl, missing, rfl⟩, Config.settles_iff.mpr refused⟩)
  have request : Request.ofArguments (some "b.toml") ["config"] = .ok ⟨some "b.toml", .config⟩ := by
    decide +kernel
  have given : Request.ofArguments none ["config"] = .ok ⟨none, .config⟩ := by decide +kernel
  refine ⟨found, ?_, prioritised.missing "c.toml" _ rfl, ?_⟩
  · rw [← found]
    refine prioritised.behind ["c.toml"] "a.toml" ["b.toml"] rfl missing ⟨_, rfl⟩ _ ["b.toml"] ?_
    rw [List.forall_mem_append, List.forall_mem_singleton, List.forall_mem_singleton]
    exact ⟨rfl, rfl⟩
  · obtain ⟨given', same, named⟩ := asked (fun _ => some "b.toml") _ _ request
    obtain rfl := Except.ok.inj (given.symm.trans same)
    refine named.trans ?_
    decide +kernel

end CqlStatements.Command
