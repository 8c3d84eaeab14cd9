import ScriptAnalysis.Log.Directive

/-!
# Log filters

A filter is a list of directives. Of all directives that fit a record the most specific
one decides whether the record is shown.
-/

namespace ScriptAnalysis

/-- Directives in the order in which they were written. -/
structure LogFilter where
  directives : List LogDirective
  deriving DecidableEq, Repr

namespace LogFilter

/-- Cut a text at its commas. -/
def segments : List Char → List (List Char)
  | [] => [[]]
  | c :: rest =>
      if c = ',' then [] :: segments rest
      else
        match segments rest with
        | [] => [[c]]
        | first :: others => (c :: first) :: others

/-- Read several directives, all of which must be good. -/
def readAll : List (List Char) → Option (List LogDirective)
  | [] => some []
  | chars :: rest =>
      match LogDirective.read chars, readAll rest with
      | some directive, some others => some (directive :: others)
      | _, _ => none

/-- Read a filter: directives with commas between them. -/
def ofText? (text : String) : Option LogFilter :=
  (readAll ((segments text.toList).filter fun chars => !chars.isEmpty)).map LogFilter.mk

/-- The filter that shows everything up to a level. -/
def upTo (level : LogLevel) : LogFilter :=
  ⟨[⟨level.verbosity, none, .anywhere⟩]⟩

/-- The filter unless another one is given: only errors if quiet, and otherwise warnings,
or more if verbose. -/
def standard (quiet verbose : Bool) : LogFilter :=
  if quiet then upTo .error
  else if verbose then upTo .info
  else upTo .warn

/-- The filter that a setting asks for. -/
def ofSetting (setting : Option String) (quiet verbose : Bool) : LogFilter :=
  (setting.bind ofText?).getD (standard quiet verbose)

/-- The directive that decides about a record: the most specific one that fits, and of
equally specific ones the last. -/
def deciding? (filter : LogFilter) (record : LogRecord) : Option LogDirective :=
  (filter.directives.filter fun directive => directive.fits record).foldl
    (fun best directive =>
      match best with
      | none => some directive
      | some other => if directive.asSpecific other then some directive else some other)
    none

/-- Whether a record is shown. -/
def shows (filter : LogFilter) (record : LogRecord) : Bool :=
  match filter.deciding? record with
  | some directive => record.level.verbosity ≤ directive.verbosity
  | none => false

/-- The lines of the log for some events. -/
def lines (filter : LogFilter) (events : List Event) : List String :=
  ((events.filterMap Event.record?).filter filter.shows).map LogRecord.text

end LogFilter

end ScriptAnalysis
