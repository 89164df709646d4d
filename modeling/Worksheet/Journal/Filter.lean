import Worksheet.Journal

/-!
Which events are written to the log.

A filter is a list of directives between commas. A directive is a level, which is the threshold for
every event, or the start of a target, or both joined by an equals sign. Of the directives that match
an event's target the one with the longest start decides.
-/

namespace Worksheet

/-- A directive: the start of the targets it is for, and the rank up to which events pass. -/
structure Directive where
  target : String
  threshold : Nat
deriving DecidableEq, Repr

namespace Directive

/-- The threshold of a level's name in any case, or of its number. -/
def threshold? (name : String) : Option Nat :=
  match name.map Char.toLower with
  | "off" | "0" => some 0
  | "error" | "1" => some 1
  | "warn" | "2" => some 2
  | "info" | "3" => some 3
  | "debug" | "4" => some 4
  | "trace" | "5" => some 5
  | _ => none

/-- A character of a target. -/
def isTargetChar (c : Char) : Bool :=
  c.isAlphanum || c = '_' || c = ':' || c = '-'

/-- Reads a directive. A target alone lets everything pass. -/
def parse (s : String) : Option Directive :=
  match threshold? s with
  | some n => some ⟨"", n⟩
  | none =>
    match s.splitOn "=" with
    | [target] => if target.toList.all isTargetChar then some ⟨target, 5⟩ else none
    | [target, level] =>
      if target ≠ "" ∧ target.toList.all isTargetChar then
        if level = "" then some ⟨target, 5⟩ else (threshold? level).map (⟨target, ·⟩)
      else none
    | _ => none

end Directive

/-- A list of directives. -/
abbrev Filter := List Directive

namespace Filter

/-- Reads a filter. An empty one lets errors pass. -/
def parse (s : String) : Option Filter :=
  match (s.splitOn ",").filter (· ≠ "") with
  | [] => some [⟨"", 1⟩]
  | ds => ds.mapM Directive.parse

/-- The directive that decides about a target: the longest match, and of two for the same target
the later one. -/
def deciding (f : Filter) (target : String) : Option Directive :=
  (f.filter fun d => target.startsWith d.target).foldl
    (fun best d =>
      match best with
      | some b => if b.target.length ≤ d.target.length then some d else some b
      | none => some d)
    none

/-- An event passes if its level is at least as important as the deciding threshold. -/
def passes (f : Filter) (e : Event) : Bool :=
  (f.deciding e.target).any fun d => e.level.rank ≤ d.threshold

end Filter

end Worksheet
