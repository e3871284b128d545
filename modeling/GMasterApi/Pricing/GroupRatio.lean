import Mathlib.Data.Rat.Defs

/-!
# Group ratios

`HandleGroupRatio` scales a price by the ratio of the group that a request uses, or by
a special ratio that the user's own group has for it.
-/

namespace Pricing

/-- The tables of `ratio_setting`: the ratio of each group, and the special ratios of the
users of a group for the groups they use. -/
structure GroupRatioSetting where
  groupRatio : String → Option ℚ
  groupGroupRatio : String → Option (String → Option ℚ)

/-- 1 for a group that is not in the table. -/
def GroupRatioSetting.getGroupRatio (setting : GroupRatioSetting) (name : String) : ℚ :=
  (setting.groupRatio name).getD 1

def GroupRatioSetting.getGroupGroupRatio (setting : GroupRatioSetting)
    (userGroup usingGroup : String) : Option ℚ :=
  (setting.groupGroupRatio userGroup).bind fun gp => gp usingGroup

structure GroupRatioInfo where
  groupRatio : ℚ
  groupSpecialRatio : ℚ
  hasSpecialRatio : Bool
  deriving DecidableEq

/-- `HandleGroupRatio`: the group that is used, which an `auto_group` of the context
replaces, and its ratio. -/
def handleGroupRatio (setting : GroupRatioSetting) (autoGroup : Option String)
    (userGroup usingGroup : String) : String × GroupRatioInfo :=
  let usingGroup := autoGroup.getD usingGroup
  match setting.getGroupGroupRatio userGroup usingGroup with
  | some userGroupRatio => (usingGroup, ⟨userGroupRatio, userGroupRatio, true⟩)
  | none => (usingGroup, ⟨setting.getGroupRatio usingGroup, -1, false⟩)

@[simp] theorem handleGroupRatio_group (setting : GroupRatioSetting) (autoGroup : Option String)
    (userGroup usingGroup : String) :
    (handleGroupRatio setting autoGroup userGroup usingGroup).1 = autoGroup.getD usingGroup := by
  unfold handleGroupRatio
  dsimp only
  split <;> rfl

/-- The ratio is the special one, where there is one. -/
theorem handleGroupRatio_ratio (setting : GroupRatioSetting) (autoGroup : Option String)
    (userGroup usingGroup : String) :
    (handleGroupRatio setting autoGroup userGroup usingGroup).2.groupRatio =
      (setting.getGroupGroupRatio userGroup (autoGroup.getD usingGroup)).getD
        (setting.getGroupRatio (autoGroup.getD usingGroup)) := by
  unfold handleGroupRatio
  dsimp only
  split
  · rename_i h
    rw [h]
    rfl
  · rename_i h
    rw [h]
    rfl

end Pricing
