/-! # Filters by name

The filters that templates may use. The set is fixed, and a name means the same filter everywhere.
-/

namespace TextTemplate

/-- A filter. -/
inductive Filter where
  | join
  | upcase
  | downcase
  | capitalize
  | size
  | default
  | strip
  | lstrip
  | rstrip
  | append
  | prepend
  | replace
  | replaceFirst
  | remove
  | split
  | first
  | last
  | reverse
  | sort
  | uniq
  | compact
  | map
  | escape
  | truncate
  | plus
  | minus
  | times
  | dividedBy
  | modulo
  | abs
  | newlineToBr
  | downcaseFirst
deriving DecidableEq, Repr

namespace Filter

/-- All filters, in the order of their names. -/
def all : List Filter :=
  [.abs, .append, .capitalize, .compact, .default, .dividedBy, .downcase, .downcaseFirst, .escape,
   .first, .join, .last, .lstrip, .map, .minus, .modulo, .newlineToBr, .plus, .prepend, .remove,
   .replace, .replaceFirst, .reverse, .rstrip, .size, .sort, .split, .strip, .times, .truncate,
   .uniq, .upcase]

/-- How a filter is written in templates. -/
def name : Filter → String
  | .join => "join"
  | .upcase => "upcase"
  | .downcase => "downcase"
  | .capitalize => "capitalize"
  | .size => "size"
  | .default => "default"
  | .strip => "strip"
  | .lstrip => "lstrip"
  | .rstrip => "rstrip"
  | .append => "append"
  | .prepend => "prepend"
  | .replace => "replace"
  | .replaceFirst => "replace_first"
  | .remove => "remove"
  | .split => "split"
  | .first => "first"
  | .last => "last"
  | .reverse => "reverse"
  | .sort => "sort"
  | .uniq => "uniq"
  | .compact => "compact"
  | .map => "map"
  | .escape => "escape"
  | .truncate => "truncate"
  | .plus => "plus"
  | .minus => "minus"
  | .times => "times"
  | .dividedBy => "divided_by"
  | .modulo => "modulo"
  | .abs => "abs"
  | .newlineToBr => "newline_to_br"
  | .downcaseFirst => "downcase_first"

/-- The filter of a given name; upper and lower case differ. -/
def ofName? (text : String) : Option Filter := all.find? fun filter => filter.name == text

theorem name_of_ofName? {text : String} {filter : Filter} (h : ofName? text = some filter) :
    filter.name = text := beq_iff_eq.mp (List.find?_some (p := fun f : Filter => f.name == text) h)

/-- The names of all filters. -/
def names : List String := all.map name

end Filter

end TextTemplate
