import JvmTypes.Logging

/-!
# Configuring logging once

A configuration is applied once: as soon as an application succeeds, later ones
do nothing, and one that fails leaves the next to try again. How a configuration
is applied to the state of logging is left open here.
-/

namespace JvmTypes.Logging

/-- Whether a configuration has been applied, and the state it was applied
to. -/
structure Setup (σ : Type) where
  configured : Bool
  state : σ

/-- A way to apply a configuration, which may fail after it has changed the
state in part. -/
abbrev Application (σ ε : Type) := Config → σ → Except ε Unit × σ

/-- The name of a logger: a string that is not empty. -/
def loggerName? : Document → Option String
  | .str name => if name = "" then none else some name
  | _ => none

/-- The wording of the error about a name that is no name of a logger. -/
def unnamedText : String := "logger name must be a non-empty string"

/-- A call that configures logging if that is still to be done. It brings the
configuration that it would apply, or the error `ε` of making it. -/
inductive Call (ε : Type) where
  | configure (config : Except ε Config)
  | getLogger (config : Except ε Config) (name : Document)

/-- What a call answers. -/
inductive Answer (ε : Type) where
  | configured
  | logger (name : String)
  | unnamed
  | failed (error : ε)

namespace Setup

variable {σ ε : Type}

/-- Applies a configuration unless `configured` says that one has been applied
successfully before. A configuration that could not be made is not applied. -/
def configure (apply : Application σ ε) (config : Except ε Config)
    (setup : Setup σ) : Except ε Unit × Setup σ :=
  if setup.configured then (.ok (), setup)
  else
    match config with
    | .error e => (.error e, setup)
    | .ok config =>
        match apply config setup.state with
        | (.ok (), state) => (.ok (), ⟨true, state⟩)
        | (.error e, state) => (.error e, ⟨false, state⟩)

/-- The answer to one call, and the setup after it. A logger without a name by
`loggerName?` is refused before anything is configured. -/
def answer (apply : Application σ ε) (setup : Setup σ) :
    Call ε → Answer ε × Setup σ
  | .configure config =>
      match setup.configure apply config with
      | (.ok (), setup) => (.configured, setup)
      | (.error e, setup) => (.failed e, setup)
  | .getLogger config name =>
      match loggerName? name with
      | none => (.unnamed, setup)
      | some name =>
          match setup.configure apply config with
          | (.ok (), setup) => (.logger name, setup)
          | (.error e, setup) => (.failed e, setup)

/-- The answers to calls made one after another, each with the setup after it,
on which the next `answer` is given. -/
def history (apply : Application σ ε) (setup : Setup σ) :
    List (Call ε) → List (Answer ε × Setup σ)
  | [] => []
  | call :: calls =>
      let next := setup.answer apply call
      next :: next.2.history apply calls

end Setup

end JvmTypes.Logging
