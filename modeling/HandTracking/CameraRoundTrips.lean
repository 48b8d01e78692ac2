/-
The maps of a camera undo each other.

* `CameraModel.eyeToWindowAll`, `windowToEyeAll`, `windowToEyeDepth` — the maps on vectors of
  points, pass by pass as in the source;
* `windowToEyeDepth_eyeToWindow` — a pixel with its depth is the point that was projected;
* `camera_round_trips` — all round trips, on lists.

A distortion is undone where it divides by nothing that is zero (`Undoes`, `Redoes`).
-/
import HandTracking.CheckedProjection

namespace Camera

variable {K : Type} [Field K]

namespace CameraIntrinsics

/-- `denormalize` undoes `normalize`. -/
theorem denormalize_normalize (k : CameraIntrinsics K) (hx : k.fx ≠ 0) (hy : k.fy ≠ 0)
    (p : Vec2 K) : k.denormalize (k.normalize p) = p := by
  funext i
  fin_cases i
  · show (p 0 - k.cx) / k.fx * k.fx + k.cx = p 0
    rw [div_mul_cancel₀ _ hx, sub_add_cancel]
  · show (p 1 - k.cy) / k.fy * k.fy + k.cy = p 1
    rw [div_mul_cancel₀ _ hy, sub_add_cancel]

end CameraIntrinsics

variable [LinearOrder K]

/-! ### Distortions that are undone -/

namespace Distortion

/-- `undistort` undoes the distortion of the point. -/
def Undoes (fns : RealFns K) (lib : CameraLib K) (d : Distortion K) (p : Vec2 K) : Prop :=
  ∃ q, d.distortChecked fns lib p = some q ∧ d.undistort lib q = p

/-- `distort` leads back to the point. -/
def Redoes (fns : RealFns K) (lib : CameraLib K) (d : Distortion K) (q : Vec2 K) : Prop :=
  d.distortChecked fns lib (d.undistort lib q) = some q

end Distortion

/-! ### The maps on vectors -/

namespace CameraModel

variable (fns : RealFns K) (lib : CameraLib K) (c : CameraModel K)

/-- `world_to_eye` for a vector of points. -/
def worldToEyeAll (point3d : List (Vec3 K)) : List (Vec3 K) := point3d.map c.worldToEye

/-- `eye_to_world` for a vector of points. -/
def eyeToWorldAll (point3d : List (Vec3 K)) : List (Vec3 K) := point3d.map c.eyeToWorld

/-- `eye_to_window` for a vector of points: projected, distorted and denormalized, one pass each. -/
def eyeToWindowAll (point3d : List (Vec3 K)) : List (Vec2 K) :=
  let projectedPoints := point3d.map project
  let result := projectedPoints.map (c.distortionModel.distort fns lib)
  result.map c.cameraIntrinsics.denormalize

/-- `undistort` for a vector of pixels, one pass for each step. -/
def undistortAll (point2d : List (Vec2 K)) : List (Vec2 K) :=
  let normPoint2d := point2d.map c.cameraIntrinsics.normalize
  let result := normPoint2d.map (c.distortionModel.undistort lib)
  result.map c.cameraIntrinsics.denormalize

/-- `window_to_eye` for a vector of pixels, one pass for each step. -/
def windowToEyeAll (point2d : List (Vec2 K)) : List (Vec3 K) :=
  let undistortPoints := c.undistortAll lib point2d
  let normalizedPoints := undistortPoints.map c.cameraIntrinsics.normalize
  normalizedPoints.map (unproject fns)

/-- `window_to_eye` of pixels with a depth: the rays, each scaled to its depth. -/
def windowToEyeDepth (point3d : List (Vec3 K)) : List (Vec3 K) :=
  let uvPoints := point3d.map fun p => ![p 0, p 1]
  let relative3d := c.windowToEyeAll fns lib uvPoints
  List.zipWith (fun relative p => (p 2 / relative 2) • relative) relative3d point3d

theorem eyeToWindowAll_eq (points : List (Vec3 K)) :
    c.eyeToWindowAll fns lib points = points.map (c.eyeToWindow fns lib) := by
  simp only [eyeToWindowAll, List.map_map]
  rfl

omit [LinearOrder K] in
theorem undistortAll_eq (points : List (Vec2 K)) :
    c.undistortAll lib points = points.map (c.undistort lib) := by
  simp only [undistortAll, List.map_map]
  rfl

theorem windowToEyeAll_eq (points : List (Vec2 K)) :
    c.windowToEyeAll fns lib points = points.map (c.windowToEye fns lib) := by
  simp only [windowToEyeAll, undistortAll_eq, List.map_map]
  rfl

theorem windowToEyeDepth_eq (points : List (Vec3 K)) :
    c.windowToEyeDepth fns lib points = points.map fun p =>
      (p 2 / c.windowToEye fns lib ![p 0, p 1] 2) • c.windowToEye fns lib ![p 0, p 1] := by
  simp only [windowToEyeDepth, windowToEyeAll_eq, List.map_map]
  induction points with
  | nil => rfl
  | cons p points ih => exact congrArg₂ List.cons rfl ih

/-! ### One point -/

variable {c}

omit [LinearOrder K] in
theorem eyeToWorld_worldToEye (hrigid : c.cameraToWorldXf.IsRigid) (p : Vec3 K) :
    c.eyeToWorld (c.worldToEye p) = p := by
  rw [eyeToWorld, worldToEye, Isometry3.apply_apply, hrigid.mul_inverse_cancel,
    Isometry3.one_apply]

omit [LinearOrder K] in
theorem worldToEye_eyeToWorld (hrigid : c.cameraToWorldXf.IsRigid) (p : Vec3 K) :
    c.worldToEye (c.eyeToWorld p) = p := by
  rw [eyeToWorld, worldToEye, Isometry3.apply_apply, hrigid.inverse_mul_cancel,
    Isometry3.one_apply]

variable (hx : c.cameraIntrinsics.fx ≠ 0) (hy : c.cameraIntrinsics.fy ≠ 0)

include hx hy

/-- The intrinsics are applied and undone on the way. -/
theorem windowToEye_eq (p : Vec2 K) :
    c.windowToEye fns lib p =
      unproject fns (c.distortionModel.undistort lib (c.cameraIntrinsics.normalize p)) := by
  rw [windowToEye, undistort, CameraIntrinsics.normalize_denormalize _ hx hy]

theorem eyeToWindow_windowToEye [IsStrictOrderedRing K] {p : Vec2 K}
    (h : c.distortionModel.Redoes fns lib (c.cameraIntrinsics.normalize p)) :
    c.eyeToWindow fns lib (c.windowToEye fns lib p) = p := by
  rw [windowToEye_eq fns lib hx hy, eyeToWindow, project_unproject,
    Distortion.distort_of_distortChecked fns lib h,
    CameraIntrinsics.denormalize_normalize _ hx hy]

/-- The ray of a pixel goes through the point that was projected there. -/
theorem windowToEye_eyeToWindow {p : Vec3 K} (h : c.distortionModel.Undoes fns lib (project p)) :
    c.windowToEye fns lib (c.eyeToWindow fns lib p) = unproject fns (project p) := by
  obtain ⟨q, hq, hundo⟩ := h
  rw [windowToEye_eq fns lib hx hy, eyeToWindow, CameraIntrinsics.normalize_denormalize _ hx hy,
    Distortion.distort_of_distortChecked fns lib hq, hundo]

omit hx hy in
/-- A ray of length 1, scaled to the depth of the point. -/
theorem smul_unproject_project [IsStrictOrderedRing K] {p : Vec3 K} (hdepth : 0 < p 2) :
    (p 2 / unproject fns (project p) 2) • unproject fns (project p) = p := by
  have hnorm : rayNorm fns (project p) ≠ 0 := (rayNorm_pos fns (project p)).ne'
  have hscale : p 2 / unproject fns (project p) 2 = p 2 * rayNorm fns (project p) := by
    show p 2 / (1 / rayNorm fns (project p)) = _
    rw [div_div_eq_mul_div, div_one]
  rw [hscale]
  funext i
  fin_cases i
  · show p 2 * rayNorm fns (project p) * (p 0 / p 2 / rayNorm fns (project p)) = p 0
    field_simp
  · show p 2 * rayNorm fns (project p) * (p 1 / p 2 / rayNorm fns (project p)) = p 1
    field_simp
  · show p 2 * rayNorm fns (project p) * (1 / rayNorm fns (project p)) = p 2
    field_simp

end CameraModel

/-! ### The round trips -/

section RoundTrips

variable [IsStrictOrderedRing K]

/-- A pixel with the depth of the point that was projected there. -/
def withDepth (uv : Vec2 K) (p : Vec3 K) : Vec3 K := ![uv 0, uv 1, p 2]

/-- Window and eye, with and without depths, and eye and world, on lists of any length. -/
theorem camera_round_trips (fns : RealFns K) (lib : CameraLib K) {c : CameraModel K}
    (hx : c.cameraIntrinsics.fx ≠ 0) (hy : c.cameraIntrinsics.fy ≠ 0)
    (hrigid : c.cameraToWorldXf.IsRigid) {pixels : List (Vec2 K)}
    (hpixels : ∀ p ∈ pixels,
      c.distortionModel.Redoes fns lib (c.cameraIntrinsics.normalize p))
    {points : List (Vec3 K)}
    (hpoints : ∀ p ∈ points, 0 < p 2 ∧ c.distortionModel.Undoes fns lib (project p))
    (worldPoints : List (Vec3 K)) :
    c.eyeToWindowAll fns lib (c.windowToEyeAll fns lib pixels) = pixels ∧
      c.windowToEyeDepth fns lib
        (List.zipWith withDepth (c.eyeToWindowAll fns lib points) points) = points ∧
      c.eyeToWorldAll (c.worldToEyeAll worldPoints) = worldPoints ∧
      c.worldToEyeAll (c.eyeToWorldAll worldPoints) = worldPoints := by
  have hid : ∀ {α : Type} {f : α → α} {l : List α}, (∀ a ∈ l, f a = a) → l.map f = l :=
    fun h => (List.map_congr_left h).trans (List.map_id _)
  refine ⟨?_, ?_, ?_, ?_⟩
  · rw [CameraModel.eyeToWindowAll_eq, CameraModel.windowToEyeAll_eq, List.map_map]
    exact hid fun p hp => CameraModel.eyeToWindow_windowToEye fns lib hx hy (hpixels p hp)
  · have hzip : List.zipWith withDepth (c.eyeToWindowAll fns lib points) points =
        points.map fun p => withDepth (c.eyeToWindow fns lib p) p := by
      rw [CameraModel.eyeToWindowAll_eq, List.zipWith_map_left, List.zipWith_self]
    -- each pixel has the depth of its own point
    rw [hzip, CameraModel.windowToEyeDepth_eq, List.map_map]
    refine hid fun p hp => ?_
    obtain ⟨hdepth, hundo⟩ := hpoints p hp
    have hpixel : ![withDepth (c.eyeToWindow fns lib p) p 0,
        withDepth (c.eyeToWindow fns lib p) p 1] = c.eyeToWindow fns lib p := by
      funext i
      fin_cases i <;> rfl
    show (p 2 / c.windowToEye fns lib ![_, _] 2) • c.windowToEye fns lib ![_, _] = p
    rw [hpixel, CameraModel.windowToEye_eyeToWindow fns lib hx hy hundo,
      CameraModel.smul_unproject_project fns hdepth]
  · rw [CameraModel.eyeToWorldAll, CameraModel.worldToEyeAll, List.map_map]
    exact hid fun p _ => CameraModel.eyeToWorld_worldToEye hrigid p
  · rw [CameraModel.eyeToWorldAll, CameraModel.worldToEyeAll, List.map_map]
    exact hid fun p _ => CameraModel.worldToEye_eyeToWorld hrigid p

end RoundTrips

/-! ### A lens that moves the pixels outwards -/

/-- A lens with one radial coefficient. -/
noncomputable def radialLens : Distortion ℝ := .openCVPinhole (1 / 4) 0 0 0 0

theorem distort_radialLens (lib : CameraLib ℝ) (p : Vec2 ℝ) :
    radialLens.distort realFns lib p = (1 + 1 / 4 * squaredNorm p) • p := by
  funext i
  fin_cases i
  · simp [radialLens, Distortion.distort, mul_comm]
  · simp [radialLens, Distortion.distort, mul_comm]

theorem squaredNorm_smul (k : ℝ) (p : Vec2 ℝ) : squaredNorm (k • p) = k ^ 2 * squaredNorm p := by
  simp only [squaredNorm, Pi.smul_apply, smul_eq_mul]
  ring

/-- A point further out is moved further out. -/
theorem distort_radialLens_injective (lib : CameraLib ℝ) :
    Function.Injective (radialLens.distort realFns lib) := by
  intro p q h
  rw [distort_radialLens, distort_radialLens] at h
  have hp : 0 ≤ squaredNorm p := add_nonneg (mul_self_nonneg _) (mul_self_nonneg _)
  have hq : 0 ≤ squaredNorm q := add_nonneg (mul_self_nonneg _) (mul_self_nonneg _)
  have hnorm := congrArg squaredNorm h
  rw [squaredNorm_smul, squaredNorm_smul] at hnorm
  have hmono : StrictMonoOn (fun r : ℝ => (1 + 1 / 4 * r) ^ 2 * r) (Set.Ici 0) := by
    intro a ha b _ hab
    have ha' : (0 : ℝ) ≤ a := ha
    exact mul_lt_mul'' (by gcongr) hab (by positivity) ha'
  have hsame : squaredNorm p = squaredNorm q := hmono.injOn hp hq hnorm
  rw [hsame] at h
  exact smul_right_injective _ (by positivity : (1 + 1 / 4 * squaredNorm q) ≠ 0) h

/-- A library that finds the point where the lens has its image. -/
noncomputable def lensLib : CameraLib ℝ :=
  { realLib with
    radialUndistort := fun k => Function.invFun
      ((Distortion.openCVPinhole (k 0) (k 1) (k 2) (k 3) (k 4)).distort realFns realLib) }

theorem undistort_distort_radialLens (p : Vec2 ℝ) :
    radialLens.undistort lensLib (radialLens.distort realFns realLib p) = p :=
  Function.leftInverse_invFun (distort_radialLens_injective realLib) p

theorem undoes_radialLens (p : Vec2 ℝ) : radialLens.Undoes realFns lensLib p :=
  ⟨radialLens.distort realFns realLib p, rfl, undistort_distort_radialLens p⟩

theorem redoes_radialLens (p : Vec2 ℝ) :
    radialLens.Redoes realFns lensLib (radialLens.distort realFns realLib p) := by
  rw [Distortion.Redoes, undistort_distort_radialLens]
  rfl

/-- It stands beside the origin, turned about its line of sight. -/
noncomputable def turnedCamera : CameraModel ℝ where
  cameraIntrinsics := ⟨400, 400, 320, 240⟩
  distortionModel := radialLens
  cameraToWorldXf := ⟨!![0, -1, 0; 1, 0, 0; 0, 0, 1], ![1, -2, 3]⟩
  cameraType := .pinhole
  videoWidth := 640
  videoHeight := 480

theorem isRigid_turnedCamera : turnedCamera.cameraToWorldXf.IsRigid := by
  rw [Isometry3.IsRigid]
  ext i j
  fin_cases i <;> fin_cases j <;> simp [turnedCamera, Matrix.mul_apply, Fin.sum_univ_three]

/-- The lens has this pixel for the ray through (2/5, 1/5). -/
theorem normalize_turnedCamera : turnedCamera.cameraIntrinsics.normalize ![488, 324] =
    radialLens.distort realFns realLib ![2 / 5, 1 / 5] := by
  rw [distort_radialLens]
  funext i
  fin_cases i
  · norm_num [CameraIntrinsics.normalize, turnedCamera, squaredNorm]
  · norm_num [CameraIntrinsics.normalize, turnedCamera, squaredNorm]

theorem camera_round_trips_turned :
    turnedCamera.eyeToWindowAll realFns lensLib
        (turnedCamera.windowToEyeAll realFns lensLib [![488, 324]]) = [![488, 324]] ∧
      turnedCamera.windowToEyeDepth realFns lensLib
        (List.zipWith withDepth (turnedCamera.eyeToWindowAll realFns lensLib
          [![4 / 5, 2 / 5, 2], ![-1, 3, 4]]) [![4 / 5, 2 / 5, 2], ![-1, 3, 4]]) =
            [![4 / 5, 2 / 5, 2], ![-1, 3, 4]] ∧
      turnedCamera.eyeToWorldAll (turnedCamera.worldToEyeAll [![1, 2, 3], 0]) = [![1, 2, 3], 0] ∧
      turnedCamera.worldToEyeAll (turnedCamera.eyeToWorldAll [![1, 2, 3], 0]) =
        [![1, 2, 3], 0] := by
  have hfocal : (400 : ℝ) ≠ 0 := by norm_num
  refine camera_round_trips realFns lensLib (c := turnedCamera) hfocal hfocal isRigid_turnedCamera
    (fun p hp => ?_) (fun p hp => ⟨?_, undoes_radialLens _⟩) _
  · obtain rfl := List.mem_singleton.mp hp
    rw [normalize_turnedCamera]
    exact redoes_radialLens _
  · rcases List.mem_pair.mp hp with rfl | rfl
    · show (0 : ℝ) < 2
      norm_num
    · show (0 : ℝ) < 4
      norm_num

end Camera
