/-
The camera models of `base`: projection, distortion and the pose of a camera.

* `Distortion` — the three distortion models, and none for a virtual camera;
* `CameraModel` — the intrinsics, a distortion and the pose;
* `eyeToWindow`, `windowToEye`, `eyeToWorld`, `worldToEye`, `undistort` — its maps,
  point by point where the source maps them over a vector.

Numbers are a field with a linear order in the place of `float`.  Square root and
arctangent are parameters (`RealFns`), and so are the functions of the camera library
(`CameraLib`).
-/
import HandTracking.Library.Isometry3
import Mathlib.Algebra.Order.Field.Basic
import Mathlib.Data.Fin.VecNotation
import Mathlib.Tactic.Linarith

namespace Camera

/-- A point of an image. -/
abbrev Vec2 (K : Type) := Fin 2 → K

/-- `CameraIntrinsics`: the focal lengths and the principal point. -/
structure CameraIntrinsics (K : Type) where
  fx : K
  fy : K
  cx : K
  cy : K
  deriving DecidableEq

/-- `CameraType` -/
inductive CameraType where
  | unknown
  | pinhole
  | fisheye400
  | fisheye624
  deriving DecidableEq, Repr

/-- The distortion models, with the order of the arguments of their constructors. -/
inductive Distortion (K : Type) where
  | noDistortion
  | openCVPinhole (k1 k2 p1 p2 k3 : K)
  | openCVFisheye (k1 k2 k3 k4 : K)
  | fisheye624 (k1 k2 k3 k4 p1 p2 k5 k6 s1 s2 s3 s4 : K)
  deriving DecidableEq

/-- `getDistortionParams` -/
def Distortion.params {K : Type} : Distortion K → List K
  | .noDistortion => []
  | .openCVPinhole k1 k2 p1 p2 k3 => [k1, k2, p1, p2, k3]
  | .openCVFisheye k1 k2 k3 k4 => [k1, k2, k3, k4]
  | .fisheye624 k1 k2 k3 k4 p1 p2 k5 k6 s1 s2 s3 s4 =>
    [k1, k2, k3, k4, k5, k6, p1, p2, s1, s2, s3, s4]

/-- A square root, and a function in the place of `atan`. -/
structure RealFns (K : Type) [Field K] [LinearOrder K] where
  sqrt : K → K
  atan : K → K
  sqrt_nonneg : ∀ x, 0 ≤ sqrt x
  mul_self_sqrt : ∀ x, 0 ≤ x → sqrt x * sqrt x = x

/-- The static functions of the camera library, at the focal length 1 and the principal
point 0, for a vector `kc` of coefficients. -/
structure CameraLib (K : Type) where
  radialUndistort : (Fin 12 → K) → Vec2 K → Vec2 K
  fisheyeUndistort : (Fin 12 → K) → Vec2 K → Vec2 K
  fisheye624Distort : (Fin 12 → K) → Vec2 K → Vec2 K
  fisheye624Undistort : (Fin 12 → K) → Vec2 K → Vec2 K

/-- `CameraModel`: the intrinsics, the distortion and the place of a camera. -/
structure CameraModel (K : Type) where
  cameraIntrinsics : CameraIntrinsics K
  distortionModel : Distortion K
  cameraToWorldXf : Isometry3 K
  cameraType : CameraType
  videoWidth : ℕ
  videoHeight : ℕ

variable {K : Type} [Field K] [LinearOrder K]

theorem RealFns.sqrt_pos [IsStrictOrderedRing K] (fns : RealFns K) {x : K} (h : 0 < x) :
    0 < fns.sqrt x := by
  refine lt_of_le_of_ne (fns.sqrt_nonneg x) fun hzero => ?_
  have hsq := fns.mul_self_sqrt x h.le
  rw [← hzero, mul_zero] at hsq
  exact h.ne hsq

theorem RealFns.sqrt_eq [IsStrictOrderedRing K] (fns : RealFns K) {x y : K} (hy : 0 ≤ y)
    (h : y * y = x) : fns.sqrt x = y := by
  have hx : 0 ≤ x := h ▸ mul_self_nonneg y
  exact (mul_self_inj (fns.sqrt_nonneg x) hy).mp ((fns.mul_self_sqrt x hx).trans h.symm)

theorem RealFns.sqrt_mul_self_mul [IsStrictOrderedRing K] (fns : RealFns K) (c : K) {x : K}
    (hx : 0 ≤ x) : fns.sqrt (c * c * x) = |c| * fns.sqrt x := by
  apply fns.sqrt_eq (mul_nonneg (abs_nonneg c) (fns.sqrt_nonneg x))
  calc |c| * fns.sqrt x * (|c| * fns.sqrt x)
      = |c| * |c| * (fns.sqrt x * fns.sqrt x) := mul_mul_mul_comm ..
    _ = c * c * x := by rw [abs_mul_abs_self, fns.mul_self_sqrt x hx]

/-- The square of the distance from the axis. -/
def squaredNorm (p : Vec2 K) : K := p 0 * p 0 + p 1 * p 1

namespace Distortion

/-- `distort`: where the lens shows a point of the normalized image. -/
def distort (fns : RealFns K) (lib : CameraLib K) : Distortion K → Vec2 K → Vec2 K
  | .noDistortion, p => p
  | .openCVPinhole k1 k2 p1 p2 k3, p =>
    let r2 := squaredNorm p
    let r4 := r2 * r2
    let r6 := r4 * r2
    let x := p 0
    let y := p 1
    ![x * (1 + k1 * r2 + k2 * r4 + k3 * r6) + 2 * p1 * x * y + p2 * (r2 + 2 * x * x),
      y * (1 + k1 * r2 + k2 * r4 + k3 * r6) + 2 * p2 * x * y + p1 * (r2 + 2 * y * y)]
  | .openCVFisheye k1 k2 k3 k4, p =>
    let r2 := squaredNorm p
    let theta := fns.atan (fns.sqrt r2)
    let theta2 := theta * theta
    let theta4 := theta2 * theta2
    let theta6 := theta2 * theta4
    let theta8 := theta4 * theta4
    let thetad := theta * (1 + k1 * theta2 + k2 * theta4 + k3 * theta6 + k4 * theta8)
    ![p 0 * thetad / fns.sqrt r2, p 1 * thetad / fns.sqrt r2]
  | .fisheye624 k1 k2 k3 k4 p1 p2 k5 k6 s1 s2 s3 s4, p =>
    lib.fisheye624Distort ![k1, k2, k3, k4, k5, k6, p1, p2, s1, s2, s3, s4] p

/-- `undistort`: the point of the normalized image that the lens shows there. -/
def undistort (lib : CameraLib K) : Distortion K → Vec2 K → Vec2 K
  | .noDistortion, p => p
  | .openCVPinhole k1 k2 p1 p2 k3, p =>
    lib.radialUndistort ![k1, k2, p1, p2, k3, 0, 0, 0, 0, 0, 0, 0] p
  | .openCVFisheye k1 k2 k3 k4, p =>
    lib.fisheyeUndistort ![k1, k2, k3, k4, 0, 0, 0, 0, 0, 0, 0, 0] p
  | .fisheye624 k1 k2 k3 k4 p1 p2 k5 k6 s1 s2 s3 s4, p =>
    lib.fisheye624Undistort ![k1, k2, k3, k4, k5, k6, p1, p2, s1, s2, s3, s4] p

end Distortion

/-! ### Projection -/

/-- `PerspectiveProjection::project` -/
def project (p : Vec3 K) : Vec2 K := ![p 0 / p 2, p 1 / p 2]

/-- The norm of `(x, y, 1)`. -/
def rayNorm (fns : RealFns K) (p : Vec2 K) : K := fns.sqrt (p 0 * p 0 + p 1 * p 1 + 1)

/-- `PerspectiveProjection::unproject`: a point at distance 1. -/
def unproject (fns : RealFns K) (p : Vec2 K) : Vec3 K :=
  ![p 0 / rayNorm fns p, p 1 / rayNorm fns p, 1 / rayNorm fns p]

theorem rayNorm_pos [IsStrictOrderedRing K] (fns : RealFns K) (p : Vec2 K) :
    0 < rayNorm fns p := by
  apply fns.sqrt_pos
  have hx := mul_self_nonneg (p 0)
  have hy := mul_self_nonneg (p 1)
  linarith

/-- `project` undoes `unproject`. -/
theorem project_unproject [IsStrictOrderedRing K] (fns : RealFns K) (p : Vec2 K) :
    project (unproject fns p) = p := by
  have hne : rayNorm fns p ≠ 0 := (rayNorm_pos fns p).ne'
  funext i
  fin_cases i
  · exact div_div_div_cancel_right₀ hne (p 0) 1 |>.trans (div_one _)
  · exact div_div_div_cancel_right₀ hne (p 1) 1 |>.trans (div_one _)

/-! ### Cameras -/

namespace CameraIntrinsics

/-- `(p - c) / f` -/
def normalize (k : CameraIntrinsics K) (p : Vec2 K) : Vec2 K :=
  ![(p 0 - k.cx) / k.fx, (p 1 - k.cy) / k.fy]

/-- `p * f + c` -/
def denormalize (k : CameraIntrinsics K) (p : Vec2 K) : Vec2 K :=
  ![p 0 * k.fx + k.cx, p 1 * k.fy + k.cy]

omit [LinearOrder K] in
theorem normalize_denormalize (k : CameraIntrinsics K) (hx : k.fx ≠ 0) (hy : k.fy ≠ 0)
    (p : Vec2 K) : k.normalize (k.denormalize p) = p := by
  funext i
  fin_cases i
  · show (p 0 * k.fx + k.cx - k.cx) / k.fx = p 0
    rw [add_sub_cancel_right, mul_div_cancel_right₀ _ hx]
  · show (p 1 * k.fy + k.cy - k.cy) / k.fy = p 1
    rw [add_sub_cancel_right, mul_div_cancel_right₀ _ hy]

end CameraIntrinsics

namespace CameraModel

/-- `getDistortionParams`: the coefficients of the distortion. -/
def getDistortionParams (c : CameraModel K) : List K := c.distortionModel.params

/-- `world_to_eye`: a point of the world, seen from the camera. -/
def worldToEye (c : CameraModel K) (p : Vec3 K) : Vec3 K := c.cameraToWorldXf.inverse.apply p

/-- `eye_to_world`: a point that is given from the camera, in the world. -/
def eyeToWorld (c : CameraModel K) (p : Vec3 K) : Vec3 K := c.cameraToWorldXf.apply p

/-- `eye_to_window`: the pixel at which the camera shows a point. -/
def eyeToWindow (fns : RealFns K) (lib : CameraLib K) (c : CameraModel K) (p : Vec3 K) : Vec2 K :=
  c.cameraIntrinsics.denormalize (c.distortionModel.distort fns lib (project p))

/-- `world_to_window`: the pixel at which it shows a point of the world. -/
def worldToWindow (fns : RealFns K) (lib : CameraLib K) (c : CameraModel K) (p : Vec3 K) :
    Vec2 K :=
  c.eyeToWindow fns lib (c.worldToEye p)

/-- `undistort`: the pixel at which a camera without distortion would show the same. -/
def undistort (lib : CameraLib K) (c : CameraModel K) (p : Vec2 K) : Vec2 K :=
  c.cameraIntrinsics.denormalize (c.distortionModel.undistort lib (c.cameraIntrinsics.normalize p))

/-- `window_to_eye`: the ray of a pixel, as a vector of length 1. -/
def windowToEye (fns : RealFns K) (lib : CameraLib K) (c : CameraModel K) (p : Vec2 K) : Vec3 K :=
  unproject fns (c.cameraIntrinsics.normalize (c.undistort lib p))

end CameraModel

/-- `PerspectiveCameraModel`: a camera without distortion. -/
abbrev PerspectiveCameraModel (K : Type) :=
  { c : CameraModel K // c.distortionModel = .noDistortion }

end Camera
