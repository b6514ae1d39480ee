-- The place of a file in the unit in which every copied member stands at the
-- line that includes it.
import EventListing.Forest.Basic

namespace EventListing.Step

/-- The offsets of a node and the nodes around it, added to `offset`. The
walk ends at the first node that does not begin inside another one. A node of
a broken listing may be its own ancestor, so the walk takes at most `hops`
steps. -/
def addAncestors (step : Step) : Nat → Option FileNode → Int → Int
  | 0, _, offset => offset
  | _ + 1, none, offset => offset
  | hops + 1, some node, offset =>
    match node.startsAt with
    | none => offset
    | some first =>
      if 0 ≤ first then
        step.addAncestors hops (node.parent.bind step.find?)
          (Saturating.add offset (Saturating.add first 1))
      else offset

/-- The offset of a file in the whole unit. It is not known when the line at
which the file begins does not read. -/
def absoluteStart? (step : Step) (file : FileNode) : Option Int :=
  file.startsAt.map fun first =>
    step.addAncestors step.files.length (file.parent.bind step.find?) (Saturating.add first 1)

end EventListing.Step
