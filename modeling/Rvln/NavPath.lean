/-
# The ROS messages that carry a trajectory

`nav_msgs/Path` as the edge nodes fill and read it: the header's frame id and
the poses, each with the planar position and the `w`, `z` components of a
yaw-only quaternion.  The other message fields (time stamps, `position.z`,
`orientation.x`, `orientation.y`) are never read by the modelled nodes.
-/
import Mathlib.Data.List.Basic

/-- `geometry_msgs/PoseStamped`, planar. -/
structure PoseStamped (R : Type*) where
  x : R
  y : R
  /-- `orientation.w`, the cosine slot. -/
  w : R
  /-- `orientation.z`, the sine slot. -/
  z : R
  deriving DecidableEq, Repr

/-- `nav_msgs/Path`. -/
structure NavPath (R : Type*) where
  frameId : String
  poses : List (PoseStamped R)
  deriving DecidableEq, Repr

namespace NavPath

variable {R : Type*}

/-- A fresh `Path()` with its frame id set: the safe-stop path. -/
def empty (frameId : String) : NavPath R := ⟨frameId, []⟩

@[simp] theorem empty_poses (frameId : String) : (empty frameId : NavPath R).poses = [] := rfl

end NavPath
