import Mathlib

namespace PosChain

-- What has been released of a whole after some of its equal parts, rounded down.
def share (whole elapsed parts : Int) : Int :=
  whole * elapsed / parts

theorem share_all (whole : Int) {parts : Int} (hp : 0 < parts) : share whole parts parts = whole :=
  Int.mul_ediv_cancel whole hp.ne'

theorem share_nonneg {whole elapsed parts : Int} (hw : 0 ≤ whole) (he : 0 ≤ elapsed)
    (hp : 0 < parts) : 0 ≤ share whole elapsed parts :=
  Int.ediv_nonneg (Int.mul_nonneg hw he) hp.le

theorem share_mono {whole elapsed later parts : Int} (hw : 0 ≤ whole) (he : elapsed ≤ later)
    (hp : 0 < parts) : share whole elapsed parts ≤ share whole later parts :=
  Int.ediv_le_ediv hp (Int.mul_le_mul_of_nonneg_left he hw)

theorem share_le {whole elapsed parts : Int} (hw : 0 ≤ whole) (he : elapsed ≤ parts)
    (hp : 0 < parts) : share whole elapsed parts ≤ whole := by
  have h := share_mono hw he hp
  rwa [share_all whole hp] at h

theorem mul_share_le {whole elapsed : Int} (hw : 0 ≤ whole) (he : 0 ≤ elapsed) (parts : Int) :
    parts * share whole elapsed parts ≤ whole * elapsed := by
  by_cases hzero : parts = 0
  · rw [hzero, zero_mul]
    exact Int.mul_nonneg hw he
  · exact Int.mul_ediv_self_le hzero

theorem share_mono_whole {whole larger elapsed parts : Int} (hw : whole ≤ larger) (he : 0 ≤ elapsed)
    (hp : 0 < parts) : share whole elapsed parts ≤ share larger elapsed parts :=
  Int.ediv_le_ediv hp (Int.mul_le_mul_of_nonneg_right hw he)

end PosChain
