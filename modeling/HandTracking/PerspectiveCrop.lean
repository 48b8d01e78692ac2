/-
The perspective crop: the coordinates in the source image at which the pixels of a virtual
camera are sampled.

`perspective_crop_image_raw` goes through the maps of the two cameras.
`perspective_crop_image` does the same four lanes at a time, with the coefficients of the
source camera sorted into the vectors `kc0`, `kc4` and `kc8`.

* `sourceEye_eq` — both work on the same rays;
* `pinholeProject_eq`, `fisheyeProject_eq_iff` — the projections, lane by lane;
* `perspectiveCropImage_eq_raw_iff` — when the two crops sample the same point;
* `laneEyeToWindow_eq_some_iff` — when the vector code has a ray where another camera has it.
-/
import HandTracking.CameraModel
import Mathlib.Analysis.Real.Pi.Bounds
import Mathlib.Analysis.SpecialFunctions.Trigonometric.Arctan
import Mathlib.Tactic.Ring

namespace Camera

variable {K : Type} [Field K] [LinearOrder K]

section Raw

variable (fns : RealFns K) (lib : CameraLib K) (src : CameraModel K)
  (dst : PerspectiveCameraModel K)

/-- The ray of a pixel of the virtual camera, in the frame of the source camera. -/
def pixelRay (x y : ℕ) : Vec3 K := dst.val.eyeToWorld (dst.val.windowToEye fns lib ![x, y])

/-- `perspective_crop_image_raw` -/
def perspectiveCropImageRaw (depthCheck : Bool) (x y : ℕ) : Vec2 K :=
  let srcEye := pixelRay fns lib dst x y
  if depthCheck ∧ srcEye 2 < 0 then ![-1, -1] else src.eyeToWindow fns lib srcEye

end Raw

/-! ### The vector code, for one lane -/

/-- `kc0`, `kc4` and `kc8`. -/
structure KcLanes (K : Type) where
  kc0 : Fin 4 → K
  kc4 : Fin 4 → K
  kc8 : Fin 4 → K

/-- The coefficients in the order of the vector registers. -/
def CameraModel.kcLanes (src : CameraModel K) : KcLanes K :=
  let kc (i : ℕ) : K := src.getDistortionParams.getD i 0
  match src.cameraType with
  | .fisheye624 =>
    ⟨![kc 0, kc 1, kc 2, kc 3], ![kc 4, kc 5, kc 6, kc 7], ![kc 8, kc 9, kc 10, kc 11]⟩
  | .pinhole => ⟨![kc 0, kc 1, kc 4, 0], ![0, 0, kc 2, kc 3], 0⟩
  | _ => ⟨![kc 0, kc 1, kc 2, kc 3], 0, 0⟩

/-- `std::numeric_limits<float>::epsilon()` -/
def epsilon : K := 1 / 8388608

/-- `th_radial` -/
def thRadial (kc : KcLanes K) (theta : K) : K :=
  let theta2 := theta * theta
  let theta4 := theta2 * theta2
  let theta6 := theta2 * theta4
  let theta8 := theta4 * theta4
  let theta10 := theta6 * theta4
  let theta12 := theta6 * theta6
  1 + theta2 * kc.kc0 0 + theta4 * kc.kc0 1 + theta6 * kc.kc0 2 + theta8 * kc.kc0 3
    + theta10 * kc.kc4 0 + theta12 * kc.kc4 1

/-- The tangential and the thin-prism terms of `fisheye_project`. -/
def tangentialThinPrism (kc : KcLanes K) (q : Vec2 K) : Vec2 K :=
  let x2 := q 0 * q 0
  let y2 := q 1 * q 1
  let xy := q 0 * q 1 * 2
  let squaredNorm := x2 + y2
  let squaredNorm2 := squaredNorm + squaredNorm
  let x := q 0 + (xy * kc.kc4 3 + (squaredNorm + 2 * x2) * kc.kc4 2)
  let y := q 1 + (xy * kc.kc4 2 + (squaredNorm + 2 * y2) * kc.kc4 3)
  ![x + squaredNorm * kc.kc8 0 + squaredNorm2 * kc.kc8 1,
    y + squaredNorm * kc.kc8 2 + squaredNorm2 * kc.kc8 3]

/-- `fisheye_project`, for a point at depth 1 and the depth `z` of its ray. -/
def fisheyeProject (fns : RealFns K) (kc : KcLanes K) (k : CameraIntrinsics K) (p : Vec2 K)
    (z : K) :
    Vec2 K :=
  let r := fns.sqrt (p 0 * p 0 + p 1 * p 1)
  let theta := fns.atan r
  let thDivr := if theta ≤ epsilon then 1 else theta / r
  let tmp := thRadial kc theta * thDivr
  let q := tangentialThinPrism kc ![tmp * p 0, tmp * p 1]
  if 0 ≤ z then ![k.cx + q 0 * k.fx, k.cy + q 1 * k.fy] else ![-1, -1]

/-- `pinhole_project` -/
def pinholeProject (kc : KcLanes K) (k : CameraIntrinsics K) (p : Vec2 K) : Vec2 K :=
  let x2 := p 0 * p 0
  let y2 := p 1 * p 1
  let xy := p 0 * p 1
  let r2 := x2 + y2
  let x2 := x2 + x2 + r2
  let y2 := y2 + y2 + r2
  let xy := xy + xy
  let tmp := 1 + (kc.kc0 0 + (kc.kc0 1 + r2 * kc.kc0 2) * r2) * r2
  let x := x2 * kc.kc4 3 + tmp * p 0 + xy * kc.kc4 2
  let y := y2 * kc.kc4 2 + tmp * p 1 + xy * kc.kc4 3
  ![k.cx + x * k.fx, k.cy + y * k.fy]

/-- `x_grid` in a lane, before the step `n` of a row. -/
def xGrid (fx : K) (lane : ℕ) : ℕ → K
  | 0 => lane * (1 / fx)
  | n + 1 => xGrid fx lane n + 4 / fx

/-- `fy_d_base` before the row `i`. -/
def fyBase (cy : K) : ℕ → K
  | 0 => -cy
  | i + 1 => fyBase cy i + 1

/-- `x_tmp` and `y_tmp` at a pixel. -/
def gridPoint (k : CameraIntrinsics K) (x y : ℕ) : Vec2 K :=
  ![-k.cx / k.fx + xGrid k.fx (x % 4) (x / 4), fyBase k.cy y * (1 / k.fy)]

/-- `PROJECT_EYE_COORD`: `src_eye_x`, `src_eye_y` and `src_eye_z` before the division by the
depth. -/
def sourceEye (fns : RealFns K) (dst : PerspectiveCameraModel K) (x y : ℕ) : Vec3 K :=
  let p := gridPoint dst.val.cameraIntrinsics x y
  let recp := 1 / fns.sqrt (1 + p 1 * p 1 + p 0 * p 0)
  let T := dst.val.cameraToWorldXf
  fun i => T.translation i + p 0 * recp * T.linear i 0 + p 1 * recp * T.linear i 1
    + recp * T.linear i 2

/-- What the vector code makes of a ray. -/
def laneEyeToWindow (fns : RealFns K) (src : CameraModel K) (srcEye : Vec3 K) : Option (Vec2 K) :=
  let recp := 1 / srcEye 2
  let p : Vec2 K := ![srcEye 0 * recp, srcEye 1 * recp]
  match src.cameraType with
  | .fisheye400 | .fisheye624 =>
    some (fisheyeProject fns src.kcLanes src.cameraIntrinsics p (srcEye 2))
  | .pinhole => some (pinholeProject src.kcLanes src.cameraIntrinsics p)
  | .unknown => none

/-- `perspective_crop_image`: the loop over a row takes sixteen pixels at a time. -/
def perspectiveCropImage (fns : RealFns K) (src : CameraModel K) (dst : PerspectiveCameraModel K)
    (dstWidth x y : ℕ) : Option (Vec2 K) :=
  if 4 * (x / 16) + 3 < dstWidth / 4 then laneEyeToWindow fns src (sourceEye fns dst x y) else none

/-! ### The rays -/

omit [LinearOrder K] in
theorem xGrid_eq (fx : K) (lane n : ℕ) : xGrid fx lane n = (lane + 4 * n) / fx := by
  induction n with
  | zero =>
    rw [xGrid, Nat.cast_zero, mul_zero, add_zero]
    exact mul_one_div _ _
  | succ n ih =>
    rw [xGrid, ih, ← add_div, Nat.cast_succ]
    congr 1
    ring

omit [LinearOrder K] in
theorem fyBase_eq (cy : K) (i : ℕ) : fyBase cy i = i - cy := by
  induction i with
  | zero => rw [fyBase, Nat.cast_zero, zero_sub]
  | succ i ih =>
    rw [fyBase, ih, Nat.cast_succ]
    ring

omit [LinearOrder K] in
theorem gridPoint_eq (k : CameraIntrinsics K) (x y : ℕ) :
    gridPoint k x y = k.normalize ![x, y] := by
  -- four pixels to a vector: `x % 4` is the lane, `x / 4` the vector
  have hx : ((x % 4 : ℕ) : K) + 4 * ((x / 4 : ℕ) : K) = x := by
    have h := Nat.mod_add_div x 4
    exact_mod_cast congrArg (Nat.cast : ℕ → K) h
  funext i
  fin_cases i
  · show -k.cx / k.fx + xGrid k.fx (x % 4) (x / 4) = ((x : K) - k.cx) / k.fx
    rw [xGrid_eq, hx, ← add_div]
    congr 1
    ring
  · show fyBase k.cy y * (1 / k.fy) = ((y : K) - k.cy) / k.fy
    rw [fyBase_eq, mul_one_div]

omit [LinearOrder K] in
/-- Undistorting without a distortion does nothing, for any focal lengths. -/
theorem normalize_denormalize_normalize (k : CameraIntrinsics K) (p : Vec2 K) :
    k.normalize (k.denormalize (k.normalize p)) = k.normalize p := by
  have hcancel : ∀ a c f : K, ((a - c) / f * f + c - c) / f = (a - c) / f := by
    intro a c f
    -- without a focal length both sides are 0
    by_cases hf : f = 0
    · rw [hf, div_zero, div_zero]
    · rw [div_mul_cancel₀ _ hf, sub_add_cancel]
  funext i
  fin_cases i
  · exact hcancel (p 0) k.cx k.fx
  · exact hcancel (p 1) k.cy k.fy

/-- The vector code works on the rays of the pixels. -/
theorem sourceEye_eq (fns : RealFns K) (lib : CameraLib K) (dst : PerspectiveCameraModel K)
    (x y : ℕ) : sourceEye fns dst x y = pixelRay fns lib dst x y := by
  have hwindow : dst.val.windowToEye fns lib ![x, y] =
      unproject fns (dst.val.cameraIntrinsics.normalize ![x, y]) := by
    rw [CameraModel.windowToEye, CameraModel.undistort, dst.property]
    exact congrArg (unproject fns) (normalize_denormalize_normalize _ _)
  rw [pixelRay, hwindow, CameraModel.eyeToWorld, sourceEye, gridPoint_eq]
  funext i
  -- the sum under the root comes in another order
  set p := dst.val.cameraIntrinsics.normalize ![(x : K), y]
  have hnorm : fns.sqrt (1 + p 1 * p 1 + p 0 * p 0) = rayNorm fns p := by
    rw [rayNorm]
    congr 1
    ring
  simp only [Isometry3.apply, Pi.add_apply, Matrix.mulVec, dotProduct, Fin.sum_univ_three, hnorm]
  show _ = _ * (p 0 / rayNorm fns p) + _ * (p 1 / rayNorm fns p) + _ * (1 / rayNorm fns p) + _
  ring

/-! ### The projections -/

/-- The type that belongs to a distortion. -/
def Distortion.cameraType : Distortion K → CameraType
  | .noDistortion => .unknown
  | .openCVPinhole .. => .pinhole
  | .openCVFisheye .. => .fisheye400
  | .fisheye624 .. => .fisheye624

/-- A camera with the distortion of its type. -/
def CameraModel.IsSource (src : CameraModel K) : Prop :=
  src.cameraType = src.distortionModel.cameraType ∧ src.cameraType ≠ .unknown

/-- The thin-prism terms as they should be. -/
def thinPrism (kc : KcLanes K) (q : Vec2 K) : Vec2 K :=
  let r2 := squaredNorm q
  ![q 0 + (kc.kc4 2 * (r2 + 2 * q 0 * q 0) + 2 * kc.kc4 3 * q 0 * q 1)
      + (kc.kc8 0 * r2 + kc.kc8 1 * r2 ^ 2),
    q 1 + (kc.kc4 3 * (r2 + 2 * q 1 * q 1) + 2 * kc.kc4 2 * q 0 * q 1)
      + (kc.kc8 2 * r2 + kc.kc8 3 * r2 ^ 2)]

/-- The coefficients of a 624 camera, as the camera library takes them. -/
def KcLanes.ofVector (kc : Fin 12 → K) : KcLanes K :=
  ⟨![kc 0, kc 1, kc 2, kc 3], ![kc 4, kc 5, kc 6, kc 7], ![kc 8, kc 9, kc 10, kc 11]⟩

/-- The point after the radial distortion of a fisheye camera. -/
def radialPoint (fns : RealFns K) (kc : KcLanes K) (p : Vec2 K) : Vec2 K :=
  let r := fns.sqrt (squaredNorm p)
  fun i => thRadial kc (fns.atan r) * (fns.atan r / r) * p i

/-- What `StaticDistort` of the camera library does off the axis. -/
def staticDistort (fns : RealFns K) (kc : Fin 12 → K) (p : Vec2 K) : Vec2 K :=
  thinPrism (.ofVector kc) (radialPoint fns (.ofVector kc) p)

/-- The point that the vector code gives to the tangential terms. -/
def laneRadialPoint (fns : RealFns K) (kc : KcLanes K) (p : Vec2 K) : Vec2 K :=
  let r := fns.sqrt (squaredNorm p)
  let theta := fns.atan r
  fun i => thRadial kc theta * (if theta ≤ epsilon then 1 else theta / r) * p i

/-- When the vector code distorts a point at depth 1 as the camera does. -/
def SameDistortion (fns : RealFns K) (src : CameraModel K) (p : Vec2 K) : Prop :=
  let r := fns.sqrt (squaredNorm p)
  let theta := fns.atan r
  let kc := src.kcLanes
  let k := src.cameraIntrinsics
  let r2 := squaredNorm (radialPoint fns kc p)
  match src.cameraType with
  | .fisheye400 =>
    epsilon < theta ∨ theta = r ∨ thRadial kc theta = 0 ∨
      (k.fx = 0 ∨ p 0 = 0) ∧ (k.fy = 0 ∨ p 1 = 0)
  | .fisheye624 =>
    if epsilon < theta then
      r2 = 0 ∨ r2 = 2 ∨ (k.fx = 0 ∨ kc.kc8 1 = 0) ∧ (k.fy = 0 ∨ kc.kc8 3 = 0)
    else
      (k.fx = 0 ∨ tangentialThinPrism kc (laneRadialPoint fns kc p) 0 =
        thinPrism kc (radialPoint fns kc p) 0) ∧
      (k.fy = 0 ∨ tangentialThinPrism kc (laneRadialPoint fns kc p) 1 =
        thinPrism kc (radialPoint fns kc p) 1)
  | _ => True

omit [LinearOrder K] in
/-- Two points have the same pixel where they agree in the directions with a focal length. -/
theorem denormalize_eq_iff (k : CameraIntrinsics K) (p q : Vec2 K) :
    k.denormalize p = k.denormalize q ↔ (k.fx = 0 ∨ p 0 = q 0) ∧ (k.fy = 0 ∨ p 1 = q 1) := by
  have hcoord : ∀ a b f c : K, a * f + c = b * f + c ↔ f = 0 ∨ a = b := by
    intro a b f c
    rw [add_left_inj, mul_eq_mul_right_iff, or_comm]
  constructor
  · intro h
    exact ⟨(hcoord ..).mp (congrFun h 0), (hcoord ..).mp (congrFun h 1)⟩
  · rintro ⟨hx, hy⟩
    funext i
    fin_cases i
    · exact (hcoord ..).mpr hx
    · exact (hcoord ..).mpr hy

omit [LinearOrder K] in
theorem pinholeProject_eq (kc : KcLanes K) (k : CameraIntrinsics K) (p : Vec2 K) :
    pinholeProject kc k p = k.denormalize
      ![p 0 * (1 + kc.kc0 0 * squaredNorm p + kc.kc0 1 * squaredNorm p ^ 2
          + kc.kc0 2 * squaredNorm p ^ 3) + 2 * kc.kc4 2 * p 0 * p 1
          + kc.kc4 3 * (squaredNorm p + 2 * p 0 * p 0),
        p 1 * (1 + kc.kc0 0 * squaredNorm p + kc.kc0 1 * squaredNorm p ^ 2
          + kc.kc0 2 * squaredNorm p ^ 3) + 2 * kc.kc4 3 * p 0 * p 1
          + kc.kc4 2 * (squaredNorm p + 2 * p 1 * p 1)] := by
  funext i
  fin_cases i
  · simp only [pinholeProject, CameraIntrinsics.denormalize, squaredNorm, Fin.zero_eta,
      Matrix.cons_val_zero]
    ring
  · simp only [pinholeProject, CameraIntrinsics.denormalize, squaredNorm, Fin.mk_one,
      Matrix.cons_val_one, Matrix.cons_val_fin_one, Matrix.cons_val_zero]
    ring

theorem fisheyeProject_eq (fns : RealFns K) (kc : KcLanes K) (k : CameraIntrinsics K) (p : Vec2 K)
    {z : K} (hz : 0 ≤ z) :
    fisheyeProject fns kc k p z =
      k.denormalize (tangentialThinPrism kc (laneRadialPoint fns kc p)) := by
  simp only [fisheyeProject, if_pos hz]
  have hpoint : ∀ t : K, (![t * p 0, t * p 1] : Vec2 K) = fun i => t * p i := by
    intro t
    funext i
    fin_cases i <;> rfl
  rw [hpoint]
  funext i
  fin_cases i
  · exact add_comm _ _
  · exact add_comm _ _

/-! ### When the projections agree -/

omit [LinearOrder K] in
/-- Twice the squared radius stands for its square. -/
theorem tangentialThinPrism_eq_iff (kc : KcLanes K) (q : Vec2 K) :
    (tangentialThinPrism kc q 0 = thinPrism kc q 0 ↔
      squaredNorm q = 0 ∨ squaredNorm q = 2 ∨ kc.kc8 1 = 0) ∧
    (tangentialThinPrism kc q 1 = thinPrism kc q 1 ↔
      squaredNorm q = 0 ∨ squaredNorm q = 2 ∨ kc.kc8 3 = 0) := by
  -- the difference of the two sums has the factors `r2`, `2 - r2` and the coefficient
  have hfactor : ∀ r2 s : K, r2 * ((2 - r2) * s) = 0 ↔ r2 = 0 ∨ r2 = 2 ∨ s = 0 := by
    intro r2 s
    rw [mul_eq_zero, mul_eq_zero, sub_eq_zero, eq_comm (a := (2 : K))]
  constructor
  · rw [← hfactor, ← sub_eq_zero (a := tangentialThinPrism kc q 0)]
    refine Eq.congr ?_ rfl
    simp only [tangentialThinPrism, thinPrism, squaredNorm, Matrix.cons_val_zero]
    ring
  · rw [← hfactor, ← sub_eq_zero (a := tangentialThinPrism kc q 1)]
    refine Eq.congr ?_ rfl
    simp only [tangentialThinPrism, thinPrism, squaredNorm, Matrix.cons_val_one,
      Matrix.cons_val_fin_one]
    ring

/-- The division by the radius makes no difference. -/
theorem laneRadialPoint_eq_iff (fns : RealFns K) (kc : KcLanes K) (p : Vec2 K)
    (hr : fns.sqrt (squaredNorm p) ≠ 0) (i : Fin 2) :
    laneRadialPoint fns kc p i = radialPoint fns kc p i ↔
      epsilon < fns.atan (fns.sqrt (squaredNorm p)) ∨
        fns.atan (fns.sqrt (squaredNorm p)) = fns.sqrt (squaredNorm p) ∨
        thRadial kc (fns.atan (fns.sqrt (squaredNorm p))) = 0 ∨ p i = 0 := by
  unfold laneRadialPoint radialPoint
  -- what matters of the radius is that it is not 0
  generalize fns.sqrt (squaredNorm p) = r at hr ⊢
  by_cases heps : epsilon < fns.atan r
  · rw [if_neg (not_le.mpr heps)]
    exact iff_of_true rfl (Or.inl heps)
  · rw [if_pos (not_lt.mp heps), mul_eq_mul_right_iff, mul_eq_mul_left_iff,
      eq_comm (a := (1 : K)), div_eq_one_iff_eq hr]
    tauto

variable {fns : RealFns K} {lib : CameraLib K} {src : CameraModel K}

omit [LinearOrder K] in
theorem kcLanes_pinhole {k1 k2 p1 p2 k3 : K} (htype : src.cameraType = .pinhole)
    (hmodel : src.distortionModel = .openCVPinhole k1 k2 p1 p2 k3) :
    src.kcLanes = ⟨![k1, k2, k3, 0], ![0, 0, p1, p2], 0⟩ := by
  simp only [CameraModel.kcLanes, CameraModel.getDistortionParams, htype, hmodel]
  rfl

omit [LinearOrder K] in
theorem kcLanes_fisheye400 {k1 k2 k3 k4 : K} (htype : src.cameraType = .fisheye400)
    (hmodel : src.distortionModel = .openCVFisheye k1 k2 k3 k4) :
    src.kcLanes = ⟨![k1, k2, k3, k4], 0, 0⟩ := by
  simp only [CameraModel.kcLanes, CameraModel.getDistortionParams, htype, hmodel]
  rfl

omit [LinearOrder K] in
theorem kcLanes_fisheye624 {k1 k2 k3 k4 p1 p2 k5 k6 s1 s2 s3 s4 : K}
    (htype : src.cameraType = .fisheye624)
    (hmodel : src.distortionModel = .fisheye624 k1 k2 k3 k4 p1 p2 k5 k6 s1 s2 s3 s4) :
    src.kcLanes = .ofVector ![k1, k2, k3, k4, k5, k6, p1, p2, s1, s2, s3, s4] := by
  simp only [CameraModel.kcLanes, CameraModel.getDistortionParams, htype, hmodel]
  rfl

/-- Without thin-prism and tangential coefficients only the radial terms are left. -/
theorem fisheye400_eq_radialPoint (k1 k2 k3 k4 : K) (p : Vec2 K) :
    Distortion.distort fns lib (.openCVFisheye k1 k2 k3 k4) p =
      radialPoint fns ⟨![k1, k2, k3, k4], 0, 0⟩ p := by
  funext i
  fin_cases i
  · simp only [Distortion.distort, radialPoint, thRadial, Fin.zero_eta, Matrix.cons_val,
      Pi.zero_apply]
    ring
  · simp only [Distortion.distort, radialPoint, thRadial, Fin.mk_one, Matrix.cons_val,
      Pi.zero_apply]
    ring

omit [LinearOrder K] in
theorem tangentialThinPrism_zero (kc0 : Fin 4 → K) (q : Vec2 K) :
    tangentialThinPrism ⟨kc0, 0, 0⟩ q = q := by
  funext i
  fin_cases i
  · simp only [tangentialThinPrism, Fin.zero_eta, Matrix.cons_val, Pi.zero_apply]
    ring
  · simp only [tangentialThinPrism, Fin.mk_one, Matrix.cons_val, Pi.zero_apply]
    ring

/-- A common alternative of two directions. -/
theorem or_or_and_or_or {a b c x y : Prop} : (a ∨ c ∨ x) ∧ (b ∨ c ∨ y) ↔ c ∨ (a ∨ x) ∧ (b ∨ y) := by
  tauto

variable (lib) in
/-- The lanes of a pinhole camera project as the camera does. -/
theorem laneEyeToWindow_pinhole {k1 k2 p1 p2 k3 : K} (htype : src.cameraType = .pinhole)
    (hmodel : src.distortionModel = .openCVPinhole k1 k2 p1 p2 k3) (ray : Vec3 K) :
    laneEyeToWindow fns src ray = some (src.eyeToWindow fns lib ray) := by
  -- the lanes multiply by the inverse depth
  have hp : (![ray 0 * (1 / ray 2), ray 1 * (1 / ray 2)] : Vec2 K) = project ray := by
    rw [mul_one_div, mul_one_div, project]
  unfold laneEyeToWindow CameraModel.eyeToWindow
  simp only [hp, htype, hmodel, Option.some.injEq]
  generalize project ray = p
  rw [pinholeProject_eq, kcLanes_pinhole htype hmodel]
  congr 1
  funext i
  fin_cases i
  · simp only [Distortion.distort, Fin.zero_eta, Matrix.cons_val]
    ring
  · simp only [Distortion.distort, Fin.mk_one, Matrix.cons_val]
    ring

/-- The vector code projects a ray as the camera does, away from the axis. -/
theorem laneEyeToWindow_eq_iff [IsStrictOrderedRing K]
    (hlib : ∀ kc p, squaredNorm p ≠ 0 → lib.fisheye624Distort kc p = staticDistort fns kc p)
    (hsrc : src.IsSource) {ray : Vec3 K} (hdepth : 0 < ray 2)
    (haxis : squaredNorm (project ray) ≠ 0) :
    laneEyeToWindow fns src ray = some (src.eyeToWindow fns lib ray) ↔
      SameDistortion fns src (project ray) := by
  have hp : (![ray 0 * (1 / ray 2), ray 1 * (1 / ray 2)] : Vec2 K) = project ray := by
    rw [mul_one_div, mul_one_div, project]
  -- the model divides by the radius, which is positive off the axis
  have hr : fns.sqrt (squaredNorm (project ray)) ≠ 0 := by
    have hnonneg : 0 ≤ squaredNorm (project ray) :=
      add_nonneg (mul_self_nonneg _) (mul_self_nonneg _)
    exact (fns.sqrt_pos (lt_of_le_of_ne hnonneg (Ne.symm haxis))).ne'
  obtain ⟨htype, hknown⟩ := hsrc
  cases hmodel : src.distortionModel with
  | noDistortion =>
    rw [hmodel] at htype
    exact absurd htype hknown
  | openCVPinhole k1 k2 p1 p2 k3 =>
    have htype : src.cameraType = .pinhole := htype.trans (congrArg Distortion.cameraType hmodel)
    refine iff_of_true (laneEyeToWindow_pinhole lib htype hmodel ray) ?_
    simp only [SameDistortion, htype]
  | openCVFisheye k1 k2 k3 k4 =>
    have htype : src.cameraType = .fisheye400 :=
      htype.trans (congrArg Distortion.cameraType hmodel)
    unfold laneEyeToWindow CameraModel.eyeToWindow SameDistortion
    simp only [hp, htype, hmodel, Option.some.injEq]
    generalize project ray = p at haxis hr
    rw [fisheyeProject_eq fns _ _ _ hdepth.le, fisheye400_eq_radialPoint,
      kcLanes_fisheye400 htype hmodel,
      tangentialThinPrism_zero, denormalize_eq_iff, laneRadialPoint_eq_iff fns _ p hr,
      laneRadialPoint_eq_iff fns _ p hr, or_or_and_or_or, or_or_and_or_or, or_or_and_or_or]
  | fisheye624 k1 k2 k3 k4 p1 p2 k5 k6 s1 s2 s3 s4 =>
    have htype : src.cameraType = .fisheye624 :=
      htype.trans (congrArg Distortion.cameraType hmodel)
    unfold laneEyeToWindow CameraModel.eyeToWindow SameDistortion
    simp only [hp, htype, hmodel, Option.some.injEq]
    generalize project ray = p at haxis hr
    rw [fisheyeProject_eq fns _ _ _ hdepth.le, Distortion.distort, hlib _ _ haxis,
      kcLanes_fisheye624 htype hmodel, denormalize_eq_iff, staticDistort]
    generalize KcLanes.ofVector ![k1, k2, k3, k4, k5, k6, p1, p2, s1, s2, s3, s4] = kc
    -- above `epsilon` the radial points agree, and only the thin-prism terms can differ
    by_cases heps : epsilon < fns.atan (fns.sqrt (squaredNorm p))
    · have hlane : laneRadialPoint fns kc p = radialPoint fns kc p :=
        funext fun i => (laneRadialPoint_eq_iff fns kc p hr i).mpr (Or.inl heps)
      obtain ⟨hx, hy⟩ := tangentialThinPrism_eq_iff kc (radialPoint fns kc p)
      rw [if_pos heps, hlane, hx, hy, or_or_and_or_or, or_or_and_or_or]
    · rw [if_neg heps]

/-! ### The lanes as a camera

Off the axis the vector code projects as a camera does: the source camera itself, but with twice
the squared radius in the place of its square. -/

/-- The distortion with twice the squared radius in the thin-prism terms, in the place of its
square. -/
def Distortion.prismDoubled : Distortion K → Distortion K
  | .fisheye624 k1 k2 k3 k4 p1 p2 k5 k6 s1 s2 s3 s4 =>
    .fisheye624 k1 k2 k3 k4 p1 p2 k5 k6 (s1 + 2 * s2) 0 (s3 + 2 * s4) 0
  | d => d

/-- The camera with the coefficients of the thin prism doubled. -/
def CameraModel.prismDoubled (src : CameraModel K) : CameraModel K :=
  { src with distortionModel := src.distortionModel.prismDoubled }

variable (fns lib) in
/-- The camera `cam` has the ray where the vector code has it for the model `src`: that of a
pinhole camera and of a fisheye camera in front and off the axis is where `src` has it, with the
thin prism doubled; that of a fisheye camera behind it is at `(-1, -1)`; and close to the axis it is
where the radial, tangential and thin-prism polynomials of `src` have the point itself, with no
angle in the place of its radius. -/
def SentAlike (src cam : CameraModel K) (ray : Vec3 K) : Prop :=
  let p := project ray
  let theta := fns.atan (fns.sqrt (squaredNorm p))
  if src.cameraType = .pinhole ∨ 0 ≤ ray 2 ∧ squaredNorm p ≠ 0 ∧ epsilon < theta then
    src.prismDoubled.eyeToWindow fns lib ray = cam.eyeToWindow fns lib ray
  else if 0 ≤ ray 2 then
    src.cameraIntrinsics.denormalize
      (tangentialThinPrism src.kcLanes fun i => thRadial src.kcLanes theta * p i) =
        cam.eyeToWindow fns lib ray
  else ![-1, -1] = cam.eyeToWindow fns lib ray

omit [LinearOrder K] in
theorem tangentialThinPrism_eq_thinPrism (k1 k2 k3 k4 k5 k6 p1 p2 s1 s2 s3 s4 : K) (q : Vec2 K) :
    tangentialThinPrism (.ofVector ![k1, k2, k3, k4, k5, k6, p1, p2, s1, s2, s3, s4]) q =
      thinPrism (.ofVector
        ![k1, k2, k3, k4, k5, k6, p1, p2, s1 + 2 * s2, 0, s3 + 2 * s4, 0]) q := by
  funext i
  fin_cases i
  · simp [tangentialThinPrism, thinPrism, squaredNorm, KcLanes.ofVector]
    ring
  · simp [tangentialThinPrism, thinPrism, squaredNorm, KcLanes.ofVector]
    ring

/-- The radial polynomial does not read the coefficients of the thin prism. -/
theorem radialPoint_ofVector (k1 k2 k3 k4 k5 k6 p1 p2 s1 s2 s3 s4 t1 t2 t3 t4 : K) (p : Vec2 K) :
    radialPoint fns (.ofVector ![k1, k2, k3, k4, k5, k6, p1, p2, s1, s2, s3, s4]) p =
      radialPoint fns (.ofVector ![k1, k2, k3, k4, k5, k6, p1, p2, t1, t2, t3, t4]) p := by
  simp only [radialPoint, thRadial, KcLanes.ofVector, Matrix.cons_val]

/-- Close to the axis, or on it, the angle does not enter. -/
theorem laneRadialPoint_of_axis [IsStrictOrderedRing K] {kc : KcLanes K} {p : Vec2 K}
    (h : ¬(squaredNorm p ≠ 0 ∧ epsilon < fns.atan (fns.sqrt (squaredNorm p)))) :
    laneRadialPoint fns kc p =
      fun i => thRadial kc (fns.atan (fns.sqrt (squaredNorm p))) * p i := by
  unfold laneRadialPoint
  funext i
  by_cases hzero : squaredNorm p = 0
  · obtain ⟨hx, hy⟩ := (mul_self_add_mul_self_eq_zero (a := p 0)).mp hzero
    have hi : p i = 0 := by
      fin_cases i
      · exact hx
      · exact hy
    simp only [hi, mul_zero]
  · have heps : fns.atan (fns.sqrt (squaredNorm p)) ≤ epsilon :=
      not_lt.mp fun hlt => h ⟨hzero, hlt⟩
    simp only [if_pos heps, mul_one]

/-- Off the axis a fisheye camera projects in the lanes as with its thin prism doubled. -/
theorem distort_prismDoubled
    (hlib : ∀ kc p, squaredNorm p ≠ 0 → lib.fisheye624Distort kc p = staticDistort fns kc p)
    (hsrc : src.IsSource) (hfisheye : src.cameraType ≠ .pinhole) {p : Vec2 K}
    (haxis : squaredNorm p ≠ 0) (heps : epsilon < fns.atan (fns.sqrt (squaredNorm p))) :
    tangentialThinPrism src.kcLanes (laneRadialPoint fns src.kcLanes p) =
      src.distortionModel.prismDoubled.distort fns lib p := by
  have hradial : ∀ kc, laneRadialPoint fns kc p = radialPoint fns kc p := by
    intro kc
    unfold laneRadialPoint radialPoint
    simp only [if_neg (not_le.mpr heps)]
  obtain ⟨htype, hknown⟩ := hsrc
  cases hmodel : src.distortionModel with
  | noDistortion =>
    rw [hmodel] at htype
    exact absurd htype hknown
  | openCVPinhole k1 k2 p1 p2 k3 =>
    rw [hmodel] at htype
    exact absurd htype hfisheye
  | openCVFisheye k1 k2 k3 k4 =>
    rw [hmodel] at htype
    have hsame : (Distortion.openCVFisheye k1 k2 k3 k4).prismDoubled =
        .openCVFisheye k1 k2 k3 k4 := rfl
    rw [kcLanes_fisheye400 htype hmodel, tangentialThinPrism_zero, hradial, hsame,
      fisheye400_eq_radialPoint]
  | fisheye624 k1 k2 k3 k4 p1 p2 k5 k6 s1 s2 s3 s4 =>
    rw [hmodel] at htype
    rw [kcLanes_fisheye624 htype hmodel, tangentialThinPrism_eq_thinPrism, hradial,
      Distortion.prismDoubled, Distortion.distort, hlib _ _ haxis, staticDistort,
      radialPoint_ofVector _ _ _ _ _ _ _ _ s1 s2 s3 s4 (s1 + 2 * s2) 0 (s3 + 2 * s4) 0]

theorem laneEyeToWindow_of_pinhole (hsrc : src.IsSource) (hpinhole : src.cameraType = .pinhole)
    (ray : Vec3 K) :
    laneEyeToWindow fns src ray = some (src.prismDoubled.eyeToWindow fns lib ray) := by
  have htype := hsrc.1
  cases hmodel : src.distortionModel with
  | openCVPinhole k1 k2 p1 p2 k3 =>
    rw [laneEyeToWindow_pinhole lib hpinhole hmodel]
    unfold CameraModel.eyeToWindow CameraModel.prismDoubled
    rw [hmodel]
    rfl
  | noDistortion =>
    rw [hmodel, hpinhole] at htype
    cases htype
  | openCVFisheye =>
    rw [hmodel, hpinhole] at htype
    cases htype
  | fisheye624 =>
    rw [hmodel, hpinhole] at htype
    cases htype

/-- The vector code has a ray where the camera `cam` has it, as a condition on the two models. -/
theorem laneEyeToWindow_eq_some_iff [IsStrictOrderedRing K]
    (hlib : ∀ kc p, squaredNorm p ≠ 0 → lib.fisheye624Distort kc p = staticDistort fns kc p)
    (hsrc : src.IsSource) (cam : CameraModel K) (ray : Vec3 K) :
    laneEyeToWindow fns src ray = some (cam.eyeToWindow fns lib ray) ↔
      SentAlike fns lib src cam ray := by
  have hp : (![ray 0 * (1 / ray 2), ray 1 * (1 / ray 2)] : Vec2 K) = project ray := by
    rw [mul_one_div, mul_one_div, project]
  unfold SentAlike
  dsimp only
  by_cases hpinhole : src.cameraType = .pinhole
  · rw [if_pos (.inl hpinhole), laneEyeToWindow_of_pinhole hsrc hpinhole, Option.some_inj]
  · have hlane : laneEyeToWindow fns src ray =
        some (fisheyeProject fns src.kcLanes src.cameraIntrinsics (project ray) (ray 2)) := by
      unfold laneEyeToWindow
      simp only [hp]
      cases htype : src.cameraType with
      | unknown => exact absurd htype hsrc.2
      | pinhole => exact absurd htype hpinhole
      | fisheye400 => rfl
      | fisheye624 => rfl
    rw [hlane, Option.some_inj]
    by_cases hdepth : 0 ≤ ray 2
    · rw [fisheyeProject_eq fns _ _ _ hdepth]
      by_cases hoff : squaredNorm (project ray) ≠ 0 ∧
          epsilon < fns.atan (fns.sqrt (squaredNorm (project ray)))
      · rw [if_pos (.inr ⟨hdepth, hoff⟩), distort_prismDoubled hlib hsrc hpinhole hoff.1 hoff.2]
        rfl
      · rw [if_neg (fun h => hoff (h.resolve_left hpinhole).2), if_pos hdepth,
          laneRadialPoint_of_axis hoff]
    · have hbehind : fisheyeProject fns src.kcLanes src.cameraIntrinsics (project ray) (ray 2) =
          ![-1, -1] := if_neg hdepth
      rw [hbehind, if_neg (fun h => hdepth (h.resolve_left hpinhole).1), if_neg hdepth]

/-! ### The two crops -/

variable (fns lib src) (dst : PerspectiveCameraModel K)

/-- All pixels of a row are covered if the width is a multiple of 16. -/
theorem perspectiveCropImage_eq {dstWidth x : ℕ} (hwidth : 16 ∣ dstWidth) (hx : x < dstWidth)
    (y : ℕ) : perspectiveCropImage fns src dst dstWidth x y =
      laneEyeToWindow fns src (pixelRay fns lib dst x y) := by
  -- the loop runs over blocks of 16 pixels; the last one is complete
  have hcovered : 4 * (x / 16) + 3 < dstWidth / 4 := by omega
  rw [perspectiveCropImage, if_pos hcovered, sourceEye_eq fns lib]

theorem perspectiveCropImageRaw_eq (depthCheck : Bool) {x y : ℕ}
    (hdepth : 0 ≤ pixelRay fns lib dst x y 2) :
    perspectiveCropImageRaw fns lib src dst depthCheck x y =
      src.eyeToWindow fns lib (pixelRay fns lib dst x y) :=
  if_neg fun h => absurd h.2 (not_lt.mpr hdepth)

omit [LinearOrder K] in
/-- A ray off the optical axis meets the plane at depth 1 off the axis. -/
theorem squaredNorm_project_ne_zero [LinearOrder K] [IsStrictOrderedRing K] {ray : Vec3 K}
    (hdepth : 0 < ray 2) (haxis : ¬ (ray 0 = 0 ∧ ray 1 = 0)) : squaredNorm (project ray) ≠ 0 := by
  intro hzero
  obtain ⟨hx, hy⟩ := (mul_self_add_mul_self_eq_zero (a := project ray 0)).mp hzero
  refine haxis ⟨?_, ?_⟩
  · exact (div_eq_zero_iff.mp hx).resolve_right hdepth.ne'
  · exact (div_eq_zero_iff.mp hy).resolve_right hdepth.ne'

theorem perspectiveCropImage_eq_raw_iff [IsStrictOrderedRing K]
    (hlib : ∀ kc p, squaredNorm p ≠ 0 → lib.fisheye624Distort kc p = staticDistort fns kc p)
    (hsrc : src.IsSource) (depthCheck : Bool) {dstWidth x y : ℕ} (hwidth : 16 ∣ dstWidth)
    (hx : x < dstWidth) (hdepth : 0 < pixelRay fns lib dst x y 2)
    (haxis : ¬ (pixelRay fns lib dst x y 0 = 0 ∧ pixelRay fns lib dst x y 1 = 0)) :
    perspectiveCropImage fns src dst dstWidth x y =
        some (perspectiveCropImageRaw fns lib src dst depthCheck x y) ↔
      SameDistortion fns src (project (pixelRay fns lib dst x y)) := by
  rw [perspectiveCropImage_eq fns lib src dst hwidth hx,
    perspectiveCropImageRaw_eq fns lib src dst depthCheck hdepth.le]
  exact laneEyeToWindow_eq_iff hlib hsrc hdepth (squaredNorm_project_ne_zero hdepth haxis)

/-! ### A camera with a thin prism -/

/-- The square root and the arctangent of the reals. -/
noncomputable def realFns : RealFns ℝ where
  sqrt := Real.sqrt
  atan := Real.arctan
  sqrt_nonneg := Real.sqrt_nonneg
  mul_self_sqrt _ h := Real.mul_self_sqrt h

/-- A camera library that distorts as it should; what it undistorts does not matter here. -/
noncomputable def realLib : CameraLib ℝ where
  radialUndistort _ p := p
  fisheyeUndistort _ p := p
  fisheye624Distort := staticDistort realFns
  fisheye624Undistort _ p := p

/-- A camera of unit intrinsics at the origin. -/
def unitCamera (distortionModel : Distortion ℝ) (cameraType : CameraType) : CameraModel ℝ where
  cameraIntrinsics := ⟨1, 1, 0, 0⟩
  distortionModel := distortionModel
  cameraToWorldXf := 1
  cameraType := cameraType
  videoWidth := 640
  videoHeight := 480

/-- Such a camera without distortion, as a virtual one. -/
def unitVirtualCamera : PerspectiveCameraModel ℝ := ⟨unitCamera .noDistortion .pinhole, rfl⟩

/-- The coefficient `s2` is 1, and all others are 0. -/
def prismCamera : CameraModel ℝ := unitCamera (.fisheye624 0 0 0 0 0 0 0 0 0 1 0 0) .fisheye624

theorem pixelRay_unitVirtualCamera (x y : ℕ) :
    pixelRay realFns realLib unitVirtualCamera x y = unproject realFns ![x, y] := by
  show (1 : Isometry3 ℝ).apply _ = _
  rw [Isometry3.one_apply]
  refine congrArg (unproject realFns) ?_
  funext i
  fin_cases i <;>
    simp [unitVirtualCamera, unitCamera, CameraIntrinsics.normalize, CameraModel.undistort,
      CameraIntrinsics.denormalize, Distortion.undistort]

theorem pixelRay_depth_pos (x y : ℕ) :
    0 < pixelRay realFns realLib unitVirtualCamera x y 2 := by
  rw [pixelRay_unitVirtualCamera]
  exact one_div_pos.mpr (rayNorm_pos _ _)

theorem pixelRay_one_ne_zero :
    ¬ (pixelRay realFns realLib unitVirtualCamera 1 0 0 = 0 ∧
      pixelRay realFns realLib unitVirtualCamera 1 0 1 = 0) := by
  rw [pixelRay_unitVirtualCamera]
  intro h
  have hpos : 0 < unproject realFns ![((1 : ℕ) : ℝ), ((0 : ℕ) : ℝ)] 0 :=
    div_pos (by norm_num) (rayNorm_pos _ _)
  exact hpos.ne' h.1

theorem perspectiveCropImage_eq_raw_iff_prism :
    prismCamera.IsSource ∧
      (perspectiveCropImage realFns prismCamera unitVirtualCamera 16 1 0 =
          some (perspectiveCropImageRaw realFns realLib prismCamera unitVirtualCamera true 1 0) ↔
        SameDistortion realFns prismCamera
          (project (pixelRay realFns realLib unitVirtualCamera 1 0))) :=
  ⟨⟨rfl, by decide⟩, perspectiveCropImage_eq_raw_iff realFns realLib prismCamera unitVirtualCamera
    (fun _ _ _ => rfl) ⟨rfl, by decide⟩ true (by decide) (by decide) (pixelRay_depth_pos 1 0)
    pixelRay_one_ne_zero⟩

theorem prismCamera_radialPoint :
    radialPoint realFns prismCamera.kcLanes ![1, 0] = ![Real.pi / 4, 0] := by
  have hlanes : prismCamera.kcLanes = .ofVector ![0, 0, 0, 0, 0, 0, 0, 0, 0, 1, 0, 0] :=
    kcLanes_fisheye624 rfl rfl
  have hr : realFns.sqrt (squaredNorm ![1, 0]) = 1 := by
    simp [realFns, squaredNorm]
  have htheta : realFns.atan 1 = Real.pi / 4 := Real.arctan_one
  funext i
  rw [hlanes]
  simp only [radialPoint, hr, htheta, thRadial, KcLanes.ofVector]
  fin_cases i
  · simp
  · simp

/-- The pixel at 45 degrees, where the squared radius is neither 0 nor 2. -/
theorem prismCamera_crops_differ :
    ¬ ∀ (src : CameraModel ℝ) (dst : PerspectiveCameraModel ℝ) (dstWidth x y : ℕ),
      src.IsSource → 16 ∣ dstWidth → x < dstWidth → 0 < pixelRay realFns realLib dst x y 2 →
      ¬ (pixelRay realFns realLib dst x y 0 = 0 ∧ pixelRay realFns realLib dst x y 1 = 0) →
      perspectiveCropImage realFns src dst dstWidth x y =
        some (perspectiveCropImageRaw realFns realLib src dst true x y) := by
  intro h
  have heq := h prismCamera unitVirtualCamera 16 1 0 ⟨rfl, by decide⟩ (by decide) (by decide)
    (pixelRay_depth_pos 1 0) pixelRay_one_ne_zero
  rw [perspectiveCropImage_eq realFns realLib _ _ (by decide) (by decide),
    perspectiveCropImageRaw_eq _ _ _ _ _ (pixelRay_depth_pos 1 0).le,
    laneEyeToWindow_eq_iff (fun _ _ _ => rfl) ⟨rfl, by decide⟩ (pixelRay_depth_pos 1 0)
      (squaredNorm_project_ne_zero (pixelRay_depth_pos 1 0) pixelRay_one_ne_zero),
    pixelRay_unitVirtualCamera, project_unproject, Nat.cast_one, Nat.cast_zero] at heq
  have hr : realFns.sqrt (squaredNorm ![1, 0]) = 1 := by
    simp [realFns, squaredNorm]
  have hpi := Real.pi_gt_three
  have hpi' := Real.pi_le_four
  have heps : epsilon < realFns.atan 1 := by
    show (1 : ℝ) / 8388608 < Real.arctan 1
    rw [Real.arctan_one]
    linarith
  have hsquare : squaredNorm (![Real.pi / 4, 0] : Vec2 ℝ) = Real.pi / 4 * (Real.pi / 4) := by
    simp [squaredNorm]
  simp only [SameDistortion, hr, if_pos heps, prismCamera_radialPoint, hsquare] at heq
  rcases heq with hzero | htwo | ⟨hfocal | hprism, -⟩
  · nlinarith
  · nlinarith
  · exact one_ne_zero hfocal
  · exact one_ne_zero hprism

end Camera
