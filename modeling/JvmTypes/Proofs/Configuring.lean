import JvmTypes.Logging.Levels
import JvmTypes.Path
import JvmTypes.Proofs.Meaning

/-!
# Logging is configured once

Logging is asked for again and again: a program configures it from a file, and
every part of it asks for its own logger, which configures it from the standard
file. A configuration is made and applied for each request until one is applied
with success, and for none after that. Making and applying can both fail, and
may do so at one time and not at another, as files and the environment change in
between.

`Setup.Takes` says what one request does. From it follows by induction what a
whole run of requests has handed to the application (`Setup.handed_after`), and
that nothing changes any more once the flag is set
(`Setup.after_of_configured`).

## Main results

* `Logging.Setup.takes_answer`: one request.
* `Logging.Setup.configured_once`: any number of requests, one after another.
-/

namespace JvmTypes.Logging

variable {σ ε : Type}

/-! ## Requests -/

/-- A request to configure logging from a file, the standard one if none is
named, or for the logger of a name. -/
inductive Request where
  | configure (path : Option Path)
  | getLogger (name : Document)

/-- A request at some time, with what it finds then: the way in which a
configuration is made from a path. -/
structure Visit (ε : Type) where
  build : Option Path → Except ε Config
  request : Request

namespace Visit

/-- The call that the request is at that time. It brings the configuration of
its own path, by `Visit.build`; a request for a logger names none. -/
def call (visit : Visit ε) : Call ε :=
  match visit.request with
  | .configure path => .configure (visit.build path)
  | .getLogger name => .getLogger (visit.build none) name

/-- The configuration that the request would apply, or the error of making it. A
request for a logger without a `loggerName?` is refused. -/
def config? (visit : Visit ε) : Option (Except ε Config) :=
  match visit.request with
  | .configure path => some (visit.build path)
  | .getLogger name => (loggerName? name).map fun _ => visit.build none

/-- The configuration that the request brings by `config?`, if one can be
made. -/
def built? (visit : Visit ε) : Option Config :=
  visit.config?.bind Except.toOption

/-- The answer to the request if it succeeds. -/
def success (visit : Visit ε) : Answer ε :=
  match visit.request with
  | .configure _ => .configured
  | .getLogger name => (loggerName? name).elim .unnamed .logger

private theorem success_getLogger {build : Option Path → Except ε Config}
    {name : Document} {known : String} (hName : loggerName? name = some known) :
    (Visit.mk build (.getLogger name)).success = .logger known := by
  show (loggerName? name).elim _ _ = _
  rw [hName]
  rfl

private theorem success_ne_failed (visit : Visit ε) (e : ε) :
    visit.success ≠ .failed e := by
  obtain ⟨build, request⟩ := visit
  cases request with
  | configure path => nofun
  | getLogger name =>
      show (loggerName? name).elim _ _ ≠ _
      cases loggerName? name <;> nofun

end Visit

namespace Setup

/-! ## One request -/

/-- What one request does to a `Setup`, and what is answered. -/
inductive Takes (apply : Application σ ε) (setup : Setup σ) (visit : Visit ε) :
    Answer ε → Setup σ → Prop
  | refused (hRefused : visit.config? = none) :
      Takes apply setup visit .unnamed setup
  | done {config : Except ε Config} (hConfig : visit.config? = some config)
      (hDone : setup.configured = true) :
      Takes apply setup visit visit.success setup
  | unbuilt {e : ε} (hConfig : visit.config? = some (.error e))
      (hOpen : setup.configured = false) :
      Takes apply setup visit (.failed e) setup
  | rejected {config : Config} {e : ε} {state : σ}
      (hConfig : visit.config? = some (.ok config))
      (hOpen : setup.configured = false)
      (hApply : apply config setup.state = (.error e, state)) :
      Takes apply setup visit (.failed e) ⟨false, state⟩
  | applied {config : Config} {state : σ}
      (hConfig : visit.config? = some (.ok config))
      (hOpen : setup.configured = false)
      (hApply : apply config setup.state = (.ok (), state)) :
      Takes apply setup visit visit.success ⟨true, state⟩

/-- The answer to a request that was not refused, from the result of
`Setup.configure`. -/
def outcome (visit : Visit ε) : Except ε Unit × Setup σ → Answer ε × Setup σ
  | (.ok (), setup) => (visit.success, setup)
  | (.error e, setup) => (.failed e, setup)

/-- A request that `config?` does not refuse is answered by `Setup.configure`,
which configures logging if that is still to be done. -/
theorem answer_of_config? {visit : Visit ε} {config : Except ε Config}
    (hConfig : visit.config? = some config) (apply : Application σ ε)
    (setup : Setup σ) :
    setup.answer apply visit.call =
      outcome visit (setup.configure apply config) := by
  obtain ⟨build, request⟩ := visit
  cases request with
  | configure path =>
      obtain rfl : build path = config := Option.some.inj hConfig
      show (match setup.configure apply (build path) with
        | (.ok (), setup) => (Answer.configured, setup)
        | (.error e, setup) => (Answer.failed e, setup)) = _
      rcases setup.configure apply (build path) with ⟨_ | _, next⟩ <;> rfl
  | getLogger name =>
      obtain ⟨known, hName, rfl⟩ := Option.map_eq_some_iff.1 hConfig
      rw [Visit.call, answer]
      dsimp only
      rw [hName]
      rcases setup.configure apply (build none) with ⟨e | _, next⟩
      · rfl
      · rw [outcome, Visit.success_getLogger hName]

/-- A request that `config?` refuses leaves the setup as it is. -/
theorem answer_of_refused {visit : Visit ε} (hRefused : visit.config? = none)
    (apply : Application σ ε) (setup : Setup σ) :
    setup.answer apply visit.call = (.unnamed, setup) := by
  obtain ⟨build, request⟩ := visit
  cases request with
  | configure path => cases hRefused
  | getLogger name =>
      have hName : loggerName? name = none := Option.map_eq_none_iff.1 hRefused
      rw [Visit.call, answer, hName]

/-- Every request does one of the things that `Takes` lists. -/
theorem takes_answer (apply : Application σ ε) (setup : Setup σ)
    (visit : Visit ε) :
    ∃ answer next, setup.answer apply visit.call = (answer, next) ∧
      setup.Takes apply visit answer next := by
  cases hConfig : visit.config? with
  | none =>
      exact ⟨_, _, answer_of_refused hConfig apply setup, .refused hConfig⟩
  | some config =>
      rw [answer_of_config? hConfig]
      unfold configure
      split
      · next hDone => exact ⟨_, _, rfl, .done hConfig hDone⟩
      · next hOpen =>
          rw [Bool.not_eq_true] at hOpen
          cases config with
          | error e => exact ⟨_, _, rfl, .unbuilt hConfig hOpen⟩
          | ok config =>
              dsimp only
              split
              · next hApply => exact ⟨_, _, rfl, .applied hConfig hOpen hApply⟩
              · next hApply => exact ⟨_, _, rfl, .rejected hConfig hOpen hApply⟩

/-! ## Many requests -/

/-- The setup after requests that are made one after another, each by
`Setup.answer`. -/
def after (apply : Application σ ε) (setup : Setup σ)
    (visits : List (Visit ε)) :
    Setup σ :=
  ((setup.history apply (visits.map Visit.call)).map Prod.snd).getLastD setup

@[simp] theorem after_nil (apply : Application σ ε) (setup : Setup σ) :
    setup.after apply [] = setup := rfl

@[simp] theorem after_cons (apply : Application σ ε) (setup : Setup σ)
    (visit : Visit ε) (visits : List (Visit ε)) :
    setup.after apply (visit :: visits) =
      (setup.answer apply visit.call).2.after apply visits := by
  rw [after, List.map_cons, history, List.map_cons, List.getLastD_cons]
  rfl

theorem after_append (apply : Application σ ε) (setup : Setup σ)
    (front back : List (Visit ε)) :
    setup.after apply (front ++ back) =
      (setup.after apply front).after apply back := by
  induction front generalizing setup with
  | nil => rfl
  | cons visit front ih => rw [List.cons_append, after_cons, after_cons, ih]

/-- Once `configured` is set, a request changes nothing. -/
theorem answer_of_configured {apply : Application σ ε} {setup : Setup σ}
    (hDone : setup.configured = true) (visit : Visit ε) :
    (setup.answer apply visit.call).2 = setup := by
  obtain ⟨answer, next, hAnswer, hTakes⟩ := setup.takes_answer apply visit
  rw [hAnswer]
  cases hTakes with
  | refused | done | unbuilt => rfl
  | rejected _ hOpen | applied _ hOpen =>
      rw [hDone] at hOpen
      cases hOpen

theorem after_of_configured {apply : Application σ ε} {setup : Setup σ}
    (hDone : setup.configured = true) (visits : List (Visit ε)) :
    setup.after apply visits = setup := by
  induction visits with
  | nil => rfl
  | cons visit visits ih => rw [after_cons, answer_of_configured hDone, ih]

/-- While `configured` is not set, a request sets it exactly if a configuration
can be made and `apply` succeeds on it. -/
theorem configured_answer_iff {apply : Application σ ε} {setup : Setup σ}
    (hOpen : setup.configured = false) (visit : Visit ε) :
    (setup.answer apply visit.call).2.configured = true ↔
      ∃ config, visit.config? = some (.ok config) ∧
        (apply config setup.state).1 = .ok () := by
  obtain ⟨answer, next, hAnswer, hTakes⟩ := setup.takes_answer apply visit
  rw [hAnswer]
  cases hTakes with
  | refused hRefused => simp [hOpen, hRefused]
  | done _ hDone =>
      rw [hOpen] at hDone
      cases hDone
  | unbuilt hConfig => simp [hOpen, hConfig]
  | rejected hConfig _ hApply => simp [hConfig, hApply]
  | applied hConfig _ hApply => simp [hConfig, hApply]

/-- The answer is `failed` exactly if the request is not refused and
`configured` is set neither before nor after it. -/
theorem failed_answer_iff {apply : Application σ ε} {setup : Setup σ}
    (visit : Visit ε) :
    (∃ e, (setup.answer apply visit.call).1 = .failed e) ↔
      visit.config? ≠ none ∧ setup.configured = false ∧
        (setup.answer apply visit.call).2.configured = false := by
  obtain ⟨answer, next, hAnswer, hTakes⟩ := setup.takes_answer apply visit
  rw [hAnswer]
  cases hTakes with
  | refused hRefused => simp [hRefused]
  | done _ hDone => simp [hDone, visit.success_ne_failed]
  | unbuilt hConfig hOpen => simp [hConfig, hOpen]
  | rejected hConfig hOpen => simp [hConfig, hOpen]
  | applied => simp [visit.success_ne_failed]

/-- The requests `front` and one behind them, which is the first on which
`apply` succeeds. -/
structure Succeeds (apply : Application σ ε) (setup : Setup σ)
    (front : List (Visit ε)) (visit : Visit ε) (config : Config) : Prop where
  isOpen : (setup.after apply front).configured = false
  built : visit.config? = some (.ok config)
  applied : (apply config (setup.after apply front).state).1 = .ok ()

/-- What comes behind the first success changes nothing. -/
theorem Succeeds.after_eq {apply : Application σ ε} {setup : Setup σ}
    {front : List (Visit ε)} {visit : Visit ε} {config : Config}
    (hSucceeds : setup.Succeeds apply front visit config)
    (back : List (Visit ε)) :
    setup.after apply (front ++ visit :: back) =
        ((setup.after apply front).answer apply visit.call).2 ∧
      (setup.after apply (front ++ visit :: back)).configured = true := by
  have hDone := (configured_answer_iff hSucceeds.isOpen visit).2
    ⟨config, hSucceeds.built, hSucceeds.applied⟩
  rw [after_append, after_cons, after_of_configured hDone]
  exact ⟨rfl, hDone⟩

/-- The flag `configured` is set after some requests exactly if one of them
`Succeeds`. -/
theorem configured_after_iff {apply : Application σ ε} {setup : Setup σ}
    (hOpen : setup.configured = false) (visits : List (Visit ε)) :
    (setup.after apply visits).configured = true ↔
      ∃ front visit back config, visits = front ++ visit :: back ∧
        setup.Succeeds apply front visit config := by
  constructor
  · intro hDone
    induction visits generalizing setup with
    | nil =>
        rw [after_nil, hOpen] at hDone
        cases hDone
    | cons visit visits ih =>
        rw [after_cons] at hDone
        cases hNext : (setup.answer apply visit.call).2.configured with
        | true =>
            obtain ⟨config, hBuilt, hApplied⟩ :=
              (configured_answer_iff hOpen visit).1 hNext
            exact ⟨[], visit, visits, config, rfl, hOpen, hBuilt, hApplied⟩
        | false =>
            obtain ⟨front, first, back, config, rfl, hSucceeds⟩ :=
              ih hNext hDone
            refine ⟨visit :: front, first, back, config, rfl, ?_,
              hSucceeds.built, ?_⟩
            · rw [after_cons]
              exact hSucceeds.isOpen
            · rw [after_cons]
              exact hSucceeds.applied
  · rintro ⟨front, visit, back, config, rfl, hSucceeds⟩
    exact (hSucceeds.after_eq back).2

/-! ## What is handed to the application -/

/-- The application `apply` with a record of the configurations that are handed
to it. -/
def recorded (apply : Application σ ε) : Application (σ × List Config) ε :=
  fun config known =>
    ((apply config known.1).1, (apply config known.1).2, known.2 ++ [config])

/-- Logging before any request, with nothing handed to the application; the list
that `recorded` keeps is empty. -/
def untouched (state : σ) : Setup (σ × List Config) := ⟨false, state, []⟩

/-- While `configured` is not set, a request hands over the configuration that
it brings by `built?`. -/
theorem handed_answer {apply : Application σ ε}
    {setup : Setup (σ × List Config)} (hOpen : setup.configured = false)
    (visit : Visit ε) :
    (setup.answer (recorded apply) visit.call).2.state.2 =
      setup.state.2 ++ visit.built?.toList := by
  obtain ⟨answer, next, hAnswer, hTakes⟩ :=
    setup.takes_answer (recorded apply) visit
  rw [hAnswer, Visit.built?]
  cases hTakes with
  | refused hRefused => simp [hRefused]
  | done _ hDone =>
      rw [hOpen] at hDone
      cases hDone
  | unbuilt hConfig => simp [hConfig, Except.toOption]
  | rejected hConfig _ hApply | applied hConfig _ hApply =>
      obtain ⟨-, rfl⟩ := Prod.mk.inj hApply
      simp [hConfig, Except.toOption]

/-- As long as there is no success, each request hands over what it brings by
`built?`. -/
theorem handed_after {apply : Application σ ε} {setup : Setup (σ × List Config)}
    (hOpen : setup.configured = false) {visits : List (Visit ε)}
    (hAfter : (setup.after (recorded apply) visits).configured = false) :
    (setup.after (recorded apply) visits).state.2 =
      setup.state.2 ++ visits.filterMap Visit.built? := by
  induction visits generalizing setup with
  | nil => simp
  | cons visit visits ih =>
      rw [after_cons] at hAfter ⊢
      have hNext : (setup.answer (recorded apply) visit.call).2.configured =
          false := by
        rw [← Bool.not_eq_true]
        intro hDone
        rw [after_of_configured hDone, hDone] at hAfter
        cases hAfter
      rw [ih hNext hAfter, handed_answer hOpen, List.filterMap_cons]
      cases visit.built? <;> simp

/-- Logging after requests that are made from `untouched` on. -/
def run (apply : Application σ ε) (state : σ) (visits : List (Visit ε)) :
    Setup (σ × List Config) :=
  (untouched state).after (recorded apply) visits

/-- Logging is configured once. The flag is set after, and only after, a
configuration was applied with success. Up to the first success, with it, each
request hands over the configuration of its own path, if one can be made; after
it nothing is handed over or changed any more. A request fails exactly if it
should have configured logging and did not, and then the next one tries again. A
request for a logger without a name is refused at any time, and changes
nothing. -/
theorem configured_once (apply : Application σ ε) (state : σ)
    (visits : List (Visit ε)) :
    ((run apply state visits).configured = true ↔
      ∃ front visit back config, visits = front ++ visit :: back ∧
        (untouched state).Succeeds (recorded apply) front visit config) ∧
    ((run apply state visits).configured = false →
      (run apply state visits).state.2 = visits.filterMap Visit.built?) ∧
    (∀ front visit back config, visits = front ++ visit :: back →
      (untouched state).Succeeds (recorded apply) front visit config →
        (run apply state visits).state.2 =
          front.filterMap Visit.built? ++ [config] ∧
        run apply state visits = run apply state (front ++ [visit])) ∧
    (∀ visit,
      (∃ e, ((run apply state visits).answer (recorded apply) visit.call).1 =
        .failed e) ↔
        visit.config? ≠ none ∧ (run apply state visits).configured = false ∧
          (run apply state (visits ++ [visit])).configured = false) ∧
    ∀ (setup : Setup σ) (build : Option Path → Except ε Config)
      (name : Document),
      (∀ text, name = .str text → text = "") →
        setup.answer apply (Visit.mk build (.getLogger name)).call =
          (.unnamed, setup) := by
  refine ⟨configured_after_iff rfl visits,
    fun hAfter => handed_after rfl hAfter, ?_, ?_, ?_⟩
  · rintro front visit back config rfl hSucceeds
    obtain ⟨hBack, -⟩ := hSucceeds.after_eq back
    obtain ⟨hLast, -⟩ := hSucceeds.after_eq []
    have hBuilt : visit.built? = some config := by
      rw [Visit.built?, hSucceeds.built]
      rfl
    have hHanded := handed_after rfl hSucceeds.isOpen
    refine ⟨?_, hBack.trans hLast.symm⟩
    rw [run, hBack, handed_answer hSucceeds.isOpen, hHanded, hBuilt]
    rfl
  · intro visit
    have hNext : run apply state (visits ++ [visit]) =
        ((run apply state visits).answer (recorded apply) visit.call).2 := by
      rw [run, run, after_append, after_cons, after_nil]
    rw [failed_answer_iff, hNext]
  · intro setup build name hName
    refine answer_of_refused ?_ apply setup
    have hNone : loggerName? name = none := by
      cases name with
      | str text => rw [loggerName?, if_pos (hName text rfl)]
      | _ => rfl
    show (loggerName? name).map _ = none
    rw [hNone, Option.map_none]

/-- Configurations made from a file of another version, if a file is named, and
else from the level `info` alone. -/
def versions : Option Path → Except ApplyError Config
  | some _ =>
      (configuration (some (.map [(.str "version", .int 2)])) none).mapError
        .ofFault
  | none => (configuration none (some "info")).mapError .ofFault

/-- The `defaultConfig` with another version. -/
def otherVersion : Config :=
  (.str "version", .int 2) :: (defaultConfig defaultLevel).tail

/-- A request to configure logging from a file. -/
def fileVisit : Visit ApplyError :=
  ⟨versions, .configure (some (.ofString "log.yaml"))⟩

/-- A request for a logger. -/
def loggerVisit : Visit ApplyError := ⟨versions, .getLogger (.str "typeexpr")⟩

/-- A request for a logger without a name, and one from a file. -/
def vainVisits : List (Visit ApplyError) :=
  [⟨versions, .getLogger (.str "")⟩, fileVisit]

private theorem config?_fileVisit :
    fileVisit.config? = some (.ok otherVersion) := rfl

private theorem config?_loggerVisit :
    loggerVisit.config? = some (.ok (defaultConfig "INFO")) := by
  have hLevel : levelOf (some "info") = "INFO" := by decide +kernel
  have hBuilt : configuration none (some "info") =
      .ok (defaultConfig "INFO") := by
    rw [configuration, hLevel]
    rfl
  show some ((configuration none (some "info")).mapError ApplyError.ofFault) = _
  rw [hBuilt]
  rfl

private theorem apply_otherVersion :
    apply otherVersion (.int 0) =
      (.error (.unsupportedVersion (.int 2)), .int 0) := rfl

private theorem after_vainVisits :
    (untouched (.int 0)).after (recorded apply) vainVisits =
    ⟨false, .int 0, [otherVersion]⟩ := by
  rw [vainVisits, after_cons, answer_of_refused rfl, after_cons,
    answer_of_config? config?_fileVisit, after_nil]
  simp [configure, untouched, recorded, apply_otherVersion, outcome]

/-- The version is refused at the second request. The third `Succeeds`, and what
the fourth would apply is not looked at. -/
theorem configured_once_versions :
    (untouched (.int 0)).Succeeds (recorded apply) vainVisits loggerVisit
      (defaultConfig "INFO") ∧
    (run apply (.int 0) (vainVisits ++ [loggerVisit, fileVisit])).configured =
      true ∧
    (run apply (.int 0) (vainVisits ++ [loggerVisit, fileVisit])).state.2 =
      [otherVersion, defaultConfig "INFO"] := by
  have hApplied : (apply (defaultConfig "INFO") (.int 0)).1 = .ok () :=
    toOption_eq_some_iff.1 (by decide +kernel)
  have hVain : vainVisits.filterMap Visit.built? = [otherVersion] := by
    rw [vainVisits, List.filterMap_cons, List.filterMap_cons,
      Visit.built?, Visit.built?, config?_fileVisit]
    rfl
  have hSucceeds : (untouched (.int 0)).Succeeds
      (recorded apply) vainVisits loggerVisit
      (defaultConfig "INFO") := by
    refine ⟨?_, config?_loggerVisit, ?_⟩
    · rw [after_vainVisits]
    · rw [after_vainVisits, recorded, hApplied]
  obtain ⟨hFlag, -, hFirst, -⟩ :=
    configured_once apply (.int 0) (vainVisits ++ [loggerVisit, fileVisit])
  obtain ⟨hHanded, -⟩ :=
    hFirst vainVisits loggerVisit [fileVisit] _ rfl hSucceeds
  rw [hVain] at hHanded
  exact ⟨hSucceeds, hFlag.2 ⟨_, _, _, _, rfl, hSucceeds⟩, hHanded⟩

end Setup

end JvmTypes.Logging
