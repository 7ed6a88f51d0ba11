/-!
# Log filters

A filter is a list of directives, separated by commas. A directive is a level
for everything, or the beginning of a target with a level for it; without one
it admits everything from there. Of the directives that apply to a target the
one with the longest beginning decides, and of equal ones the last. What is no
directive is skipped.
-/

namespace MediaSeal

/-- How much is logged; each level includes the ones before it. -/
inductive LogLevel
  | off
  | error
  | warn
  | info
  | debug
  | trace
deriving DecidableEq, Repr

namespace LogLevel

/-- The levels in order, by name. -/
def names : List (String × LogLevel) :=
  [("off", off), ("error", error), ("warn", warn), ("info", info), ("debug", debug),
   ("trace", trace)]

/-- The place of a level among all. -/
def rank : LogLevel → Nat
  | off => 0
  | error => 1
  | warn => 2
  | info => 3
  | debug => 4
  | trace => 5

/-- The level of a name, in any case of its letters, or of a rank. -/
def ofText? (text : String) : Option LogLevel :=
  match names.lookup text.toLower with
  | some level => some level
  | none =>
    if text.isEmpty ∨ ¬text.all Char.isDigit then none
    else (names.find? fun entry => text.toNat? = some entry.2.rank).map (·.2)

end LogLevel

/-- A level for the targets that begin in a certain way. -/
structure LogDirective where
  target : String
  level : LogLevel
deriving DecidableEq, Repr

namespace LogDirective

/-- Characters that a directive may start with. -/
def canStart (c : Char) : Bool := c.isAlphanum || c == '-' || c == ':' || c == '_'

/-- The directive that a text gives, if it is one that can apply to a target
outside of any span. -/
def ofText? (text : String) : Option LogDirective :=
  let s := text.toList
  if ¬(s.head?.any canStart) ∨ s.contains '[' then none
  else
    let target := String.ofList (s.takeWhile (· != '='))
    match s.dropWhile (· != '=') with
    | [] =>
      match LogLevel.ofText? text with
      | some level => some ⟨"", level⟩
      | none => some ⟨text, .trace⟩
    | [_] => some ⟨target, .trace⟩
    | _ :: level => (LogLevel.ofText? (String.ofList level)).map (⟨target, ·⟩)

/-- Whether a directive applies to a target. -/
def appliesTo (directive : LogDirective) (target : String) : Bool :=
  directive.target.toList.isPrefixOf target.toList

end LogDirective

namespace LogFilter

/-- The directives of a filter. -/
def directives (filter : String) : List LogDirective :=
  (filter.splitOn ",").filterMap LogDirective.ofText?

/-- The one of two directives that decides; `later` stands after `directive`. -/
def stronger (directive : Option LogDirective) (later : LogDirective) : LogDirective :=
  match directive with
  | none => later
  | some directive =>
    if directive.target.length ≤ later.target.length then later else directive

/-- Whether a filter lets lines of a level and a target through. -/
def admits (filter : String) (level : LogLevel) (target : String) : Bool :=
  let applying := (directives filter).filter (·.appliesTo target)
  match applying.foldl (fun strongest next => some (stronger strongest next)) none with
  | none => false
  | some directive => decide (level.rank ≤ directive.level.rank)

end LogFilter

end MediaSeal
