/-
The points that `Keypoint3DSolver` returns, and the viewing rays of the input.

The 21 keypoints go to the solver as 25 rows, five for each finger with the root before them, and
come back.  Each point is its depth times the ray of its own pixel.  A point of depth 0 is the
center of the camera, which has no projection.

* `formatKpt3d_validRow` — the rows that come back are those of the keypoints;
* `keypointsAt_eq` — the points at a depth of the root;
* `solveKeypoints_on_rays` — what a call that succeeds returns.
-/
import HandTracking.CameraRoundTrips
import HandTracking.MonoHandKpt3D

namespace Mono

open Camera

section

variable {K : Type} [Field K] [LinearOrder K]

/-- The point has a projection, and it is the pixel. -/
def ProjectsTo (cameraK : CameraIntrinsics K) (p : Vec3 K) (pixel : Vec2 K) : Prop :=
  p 2 ≠ 0 ∧ cameraK.denormalize (project p) = pixel

namespace SolverInput

variable (input : SolverInput K)

/-- The input pixel of a keypoint. -/
def pixel (i : Fin 21) : Vec2 K := ![input.kpt25d i 0, input.kpt25d i 1]

/-- The ray of the pixel, up to the depth 1. -/
def ray (i : Fin 21) : Vec3 K :=
  let q := input.cameraK.normalize (input.pixel i)
  ![q 0, q 1, 1]

end SolverInput

omit [Field K] [LinearOrder K] in
/-- The keypoint in a row of the formatted matrix. -/
theorem formatKpt3d_validRow (p : Points 21 K) (i : Fin 21) : formatKpt3d p (validRow i) = p i := by
  rw [formatKpt3d]
  by_cases hroot : i.val = 0
  · have hrow : (validRow i).val % 5 = 0 := by
      rw [validRow, if_pos hroot]
      rfl
    have hzero : i = 0 := Fin.ext hroot
    rw [if_pos hrow, hzero]
  · have hrow : (validRow i).val = 5 * ((i.val - 1) / 4) + (i.val - 1) % 4 + 1 := by
      rw [validRow, if_neg hroot]
    rw [if_neg (by omega)]
    exact congrArg p (Fin.ext (by show 4 * ((validRow i).val / 5) + _ = _; omega))

section Rays

variable (input : SolverInput K)

omit [LinearOrder K] in
/-- The points at a depth of the root are on the rays of their pixels. -/
theorem keypointsAt_eq (root : K) (i : Fin 21) :
    input.keypointsAt false root i =
      (root + input.kpt25d i 2 * input.handScale) • input.ray i := by
  have hdepth : input.relDepth (validRow i) = input.kpt25d i 2 * input.handScale := by
    rw [SolverInput.relDepth, formatKpt3d_validRow]
  have hray : input.normKpt3d (validRow i) = input.ray i := by
    rw [SolverInput.normKpt3d, formatKpt3d_validRow]
    rfl
  show (root + input.relDepth (validRow i)) • input.normKpt3d (validRow i) = _
  rw [hdepth, hray]

variable {input}

omit [LinearOrder K] in
/-- Any point of a ray but its origin has the pixel as its projection. -/
theorem projectsTo_ray (hfx : input.cameraK.fx ≠ 0) (hfy : input.cameraK.fy ≠ 0) {depth : K}
    (hdepth : depth ≠ 0) (i : Fin 21) :
    ProjectsTo input.cameraK (depth • input.ray i) (input.pixel i) := by
  have hz : (depth • input.ray i) 2 = depth := mul_one depth
  refine ⟨hz.trans_ne hdepth, ?_⟩
  have hproject : project (depth • input.ray i) = input.cameraK.normalize (input.pixel i) := by
    funext t
    fin_cases t
    · show depth * _ / (depth • input.ray i) 2 = _
      rw [hz, mul_div_cancel_left₀ _ hdepth]
      rfl
    · show depth * _ / (depth • input.ray i) 2 = _
      rw [hz, mul_div_cancel_left₀ _ hdepth]
      rfl
  rw [hproject, input.cameraK.denormalize_normalize hfx hfy]

/-- What `SolveKeypoints` returns without the mirror: there is a depth of the root from which each
keypoint has its depth, and each point lies on the ray of its own pixel and, unless its depth is 0,
projects to the pixel. -/
theorem solveKeypoints_on_rays (hfx : input.cameraK.fx ≠ 0) (hfy : input.cameraK.fy ≠ 0)
    {fns : RealFns K} {solver : TinySolver K} {sourceChange : Bool} {kpt3d : Points 21 K}
    (h : input.solveKeypoints fns solver false sourceChange = some kpt3d) :
    ∃ root, ∀ i, kpt3d i 2 = root + input.handScale * input.kpt25d i 2 ∧
      kpt3d i = kpt3d i 2 • input.ray i ∧
        (kpt3d i 2 ≠ 0 → ProjectsTo input.cameraK (kpt3d i) (input.pixel i)) := by
  rw [SolverInput.solveKeypoints] at h
  split_ifs at h
  obtain rfl := Option.some.inj h
  refine ⟨input.blendedRoot fns solver sourceChange, fun i => ?_⟩
  rw [keypointsAt_eq]
  set depth := input.blendedRoot fns solver sourceChange + input.kpt25d i 2 * input.handScale
    with hdepth
  have hz : (depth • input.ray i) 2 = depth := mul_one depth
  rw [hz]
  exact ⟨hdepth.trans (by rw [mul_comm]), rfl, fun hne => projectsTo_ray hfx hfy hne i⟩

end Rays

end

/-! ### A hand at the camera -/

/-- A hand along the axis, half a metre away; the last data have its root half a metre behind the
camera. -/
noncomputable def axisInput : SolverInput ℝ where
  kpt25d i := ![0, 0, axisDepths.getD i 0]
  handScale := 1
  lastKpt3d _ := ![0, 0, -1 / 2]
  lastKpt3dWeight := 0
  cameraK := ⟨1, 1, 0, 0⟩

/-- The root is found where the solver starts, and taken to the mean of both depths. -/
theorem solveKeypoints_axisInput (sourceChange : Bool) :
    axisInput.solveKeypoints realFns startSolver false sourceChange =
      some (axisInput.keypointsAt false (if sourceChange then 0 else 1 / 2)) := by
  have hfar : smoothDepthTh < |(1 / 2 : ℝ) - -1 / 2| := by
    rw [abs_of_pos (by norm_num), smoothDepthTh]
    norm_num
  have hroot : axisInput.blendedRoot realFns startSolver sourceChange =
      if sourceChange then 0 else 1 / 2 := by
    rw [SolverInput.blendedRoot]
    cases sourceChange with
    | false => exact if_neg fun h => Bool.false_ne_true h.1
    | true =>
      rw [if_pos ⟨rfl, hfar⟩]
      show ((1 / 2 : ℝ) + -1 / 2) * (1 / 2) = 0
      norm_num
  rw [SolverInput.solveKeypoints, hroot]
  refine if_pos ?_
  show (0 : ℝ) < converageCostTh
  norm_num [converageCostTh]

theorem solveKeypoints_on_rays_axis :
    ∃ root, ∀ i, axisInput.keypointsAt false (1 / 2) i 2 =
        root + axisInput.handScale * axisInput.kpt25d i 2 ∧
      axisInput.keypointsAt false (1 / 2) i =
          axisInput.keypointsAt false (1 / 2) i 2 • axisInput.ray i ∧
        (axisInput.keypointsAt false (1 / 2) i 2 ≠ 0 →
          ProjectsTo axisInput.cameraK (axisInput.keypointsAt false (1 / 2) i)
            (axisInput.pixel i)) :=
  solveKeypoints_on_rays one_ne_zero one_ne_zero (solveKeypoints_axisInput false)

/-- The mean of the two depths of the root is 0. -/
theorem not_solveKeypoints_projects :
    ¬ ∀ (input : SolverInput ℝ) (sourceChange : Bool) (kpt3d : Points 21 ℝ),
      input.cameraK.fx ≠ 0 → input.cameraK.fy ≠ 0 →
      input.solveKeypoints realFns startSolver false sourceChange = some kpt3d →
      ∃ root, ∀ i, kpt3d i 2 = root + input.handScale * input.kpt25d i 2 ∧
        ProjectsTo input.cameraK (kpt3d i) (input.pixel i) := by
  intro h
  obtain ⟨root, hkpt⟩ := h axisInput true _ one_ne_zero one_ne_zero (solveKeypoints_axisInput true)
  refine (hkpt 0).2.1 ?_
  rw [keypointsAt_eq]
  show ((0 : ℝ) + 0 * 1) * 1 = 0
  norm_num

end Mono
