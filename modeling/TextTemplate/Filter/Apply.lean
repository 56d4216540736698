import TextTemplate.Filter.Arithmetic
import TextTemplate.Filter.Sequence
/-! # What the filters do

A filter takes the value in front of it and the values of its arguments. Arguments it does not know
are ignored, and what it cannot handle it leaves as it is or turns into null. Only `sort` can fail
to give a value: values have no consistent order, and sorting more than a few may find that out.
-/

namespace TextTemplate.Filter

/-- The value of a filter on an input, null if `sort` has none. -/
def apply (filter : Filter) (input : Value) (args : List Value) : Value :=
  match filter with
  | .join => joinItems input args
  | .upcase => mapText Text.upper input
  | .downcase => mapText Text.lower input
  | .capitalize => mapText Text.capitalize input
  | .size => sizeOf input
  | .default => if isNull input then arg args 0 else input
  | .strip => mapText Text.trim input
  | .lstrip => mapText Text.trimStart input
  | .rstrip => mapText Text.trimEnd input
  | .append => appendText input args
  | .prepend => prependText input args
  | .replace => mapText (Text.replaceAll (textArg args 0 []) (textArg args 1 [])) input
  | .replaceFirst => mapText (Text.replaceFirst (textArg args 0 []) (textArg args 1 [])) input
  | .remove => mapText (Text.replaceAll (textArg args 0 []) []) input
  | .split => splitValue input args
  | .first => firstOf input
  | .last => lastOf input
  | .reverse => mapArray List.reverse input
  | .sort => (sortItems? input).getD .null
  | .uniq => mapArray distinct input
  | .compact => mapArray (List.filter fun item => !isNull item) input
  | .map => mapMember input args
  | .escape => mapText escapeHtml input
  | .truncate =>
    mapText (shorten (shortenedLength (arg args 0)) (textArg args 1 ['.', '.', '.'])) input
  | .plus => sum input (arg args 0)
  | .minus => difference input (arg args 0)
  | .times => product input (arg args 0)
  | .dividedBy => quotient input (arg args 0)
  | .modulo => remainder input (arg args 0)
  | .abs => absolute input
  | .newlineToBr => mapText breakLines input
  | .downcaseFirst => mapText Text.lowerFirst input

/-- The value of a filter on an input, if there is one. -/
def value? (filter : Filter) (input : Value) (args : List Value) : Option Value :=
  match filter with
  | .sort => sortItems? input
  | filter => some (filter.apply input args)

/-- Filters other than `sort` always have a value. -/
theorem value?_of_ne_sort {filter : Filter} (h : filter ≠ .sort) (input : Value)
    (args : List Value) : filter.value? input args = some (filter.apply input args) := by
  cases filter <;> first | rfl | exact absurd rfl h

end TextTemplate.Filter
