import NetReplay.Launch.Geometry

/-!
# Work items

A `WorkItem` is one position of a launch: the group it belongs to, its place
inside that group and the size of the groups. `Launch.workItems` lists the
items of a launch in the order in which they run, group after group and, inside
a group, item after item, with the x coordinate varying fastest.
-/

namespace NetReplay

/-- One position of a launch. -/
structure WorkItem where
  group : Dim3
  /-- The coordinates inside the group. -/
  place : Dim3
  groupSize : Dim3
  deriving DecidableEq, Repr, Inhabited

namespace WorkItem

/-- The coordinate inside the group; 0 beyond the third dimension. -/
def localId (w : WorkItem) (dim : Nat) : UInt64 := (w.place.get? dim).getD 0

/-- The coordinate of the group; 0 beyond the third dimension. -/
def groupId (w : WorkItem) (dim : Nat) : UInt64 := (w.group.get? dim).getD 0

/-- The coordinate in the whole launch; 0 beyond the third dimension. -/
def globalId (w : WorkItem) (dim : Nat) : UInt64 :=
  w.groupId dim * (w.groupSize.get? dim).getD 0 + w.localId dim

end WorkItem

/-- The coordinates of an index space, with z varying slowest and x fastest. -/
def Dim3.positions (d : Dim3) : List Dim3 :=
  (List.range d.z.toNat).flatMap fun z =>
    (List.range d.y.toNat).flatMap fun y =>
      (List.range d.x.toNat).map fun x =>
        ⟨UInt64.ofNat x, UInt64.ofNat y, UInt64.ofNat z⟩

/-- The work items of a launch in the order in which they run. -/
def Launch.workItems (l : Launch) : List WorkItem :=
  l.groups.positions.flatMap fun group =>
    l.groupSize.positions.map fun place => ⟨group, place, l.groupSize⟩

end NetReplay
