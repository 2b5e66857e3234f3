import Federation.Binding

/-!
# Differences between lists of bindings

A `BindingDiff` names, by key, the bindings that one list has and another has not, and
those that both have but that differ.  Of several bindings of one key in a list the
last one counts.
-/

namespace Federation

/-- The keys that are new, gone and changed, each in ascending order. -/
structure BindingDiff where
  /-- The keys that only the new list has. -/
  added : List String := []
  /-- The keys that only the old list has. -/
  removed : List String := []
  /-- The keys that both lists have, with bindings that differ. -/
  changed : List String := []
deriving DecidableEq

namespace BindingDiff

/-- The bindings of a list by key. -/
def byKey (records : List Binding) : StringMap Binding :=
  StringMap.ofList (records.map fun b => (b.key, b))

/-- The difference between an old list and a new one. -/
def between (old new : List Binding) : BindingDiff :=
  let old := byKey old
  let new := byKey new
  { added := new.keys.filter fun k => !old.contains k
    removed := old.keys.filter fun k => !new.contains k
    changed := new.keys.filter fun k => old.contains k && old.get? k != new.get? k }

/-- Whether there is no difference. -/
def isEmpty (d : BindingDiff) : Bool := d.added.isEmpty && d.removed.isEmpty && d.changed.isEmpty

/-- The JSON form of a difference. -/
def toJson (d : BindingDiff) : Json :=
  .object [("added", .texts d.added), ("removed", .texts d.removed), ("changed", .texts d.changed)]

end BindingDiff
end Federation
