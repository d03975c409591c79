import CardArchive.Search.Basic

/-!
# Searches by named calls

A search can be built by calls that name a filter and give its arguments in
order. A call with too many or too few arguments is refused before anything else.

## What this module delivers

* `Call`: the filters that can be named.
* `Call.ofName?`: the filter with a name.
* `Call.apply`: the search after a call.
-/

set_option autoImplicit false

namespace CardArchive

/-- A filter that can be called by name. -/
inductive Call where
  | value (c : Category)
  | stat
  | stats
  | mana
deriving DecidableEq

namespace Call

/-- The categories of words and values with the names of their calls. -/
def valueNames : List (String × Category) :=
  [("by_name", .name), ("by_text", .text), ("by_flavor_text", .flavorText), ("by_color", .color),
   ("by_color_identity", .colorIdentity), ("by_supertype", .supertype), ("by_type", .type),
   ("by_subtype", .subtype), ("by_block", .block), ("by_set", .set), ("by_artist", .artist),
   ("by_rarity", .rarity)]

/-- The filter with a name. -/
def ofName? (name : String) : Option Call :=
  if name = "by_stat" then some .stat
  else if name = "by_stat_versus_stat" then some .stats
  else if name = "by_mana_type" then some .mana
  else (valueNames.find? fun n => n.1 == name).map fun n => .value n.2

/-- The search after a call. A value without a mode is required. -/
def apply (s : Search) : Call → List Argument → Except Failure Search
  | value c, [v] => s.byValue c v (.mode .mustInclude)
  | value c, [v, m] => s.byValue c v m
  | stat, [a, o, b] => s.byStat a o b
  | stats, [a, o, b] => s.byStats a o b
  | mana, [a, o, b] => s.byMana a o b
  | _, _ => .error (.shape .wrongArgumentCount)

end Call

end CardArchive
